import GatewayClient.Text.Quoted

/-!
# Inspection texts

The notation in which a value shows its type and its parts to a person who reads a log: a record
is its name and its named parts between braces, a present option stands inside `Some(…)`, and a
list is its items between brackets.
-/

namespace GatewayClient.Text

/-- A record with all its parts, `Name { part: value, … }`. -/
def inspectRecord (name : String) (parts : List (String × String)) : String :=
  name ++ " \x7b " ++ ", ".intercalate (parts.map fun p => p.1 ++ ": " ++ p.2) ++ " \x7d"

/-- A record with more parts than it shows, `Name { part: value, .. }`. -/
def inspectOpenRecord (name : String) (parts : List (String × String)) : String :=
  name ++ " \x7b " ++ String.join (parts.map fun p => p.1 ++ ": " ++ p.2 ++ ", ") ++ ".. \x7d"

/-- A value that may be missing, given its inspection text. -/
def inspectOption : Option String → String
  | none => "None"
  | some shown => "Some(" ++ shown ++ ")"

/-- A list, given the inspection texts of its items. -/
def inspectList (items : List String) : String :=
  "[" ++ ", ".intercalate items ++ "]"

def inspectBool : Bool → String
  | true => "true"
  | false => "false"

end GatewayClient.Text
