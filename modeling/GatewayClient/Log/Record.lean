import GatewayClient.Text.Inspect
import GatewayClient.Text.TaskNumber

/-!
# Log records

A record has a level, a message, named fields as texts and the names of the spans around it, the
outermost first. A journal is the list of the records so far, and it answers questions about
them.
-/

namespace GatewayClient

/-- The severity of a record, from the least. -/
inductive Level
  | trace
  | debug
  | info
  | warn
  | error
deriving DecidableEq, Repr

namespace Level

def rank : Level → Nat
  | trace => 0
  | debug => 1
  | info => 2
  | warn => 3
  | error => 4

def label : Level → String
  | trace => "TRACE"
  | debug => "DEBUG"
  | info => "INFO"
  | warn => "WARN"
  | error => "ERROR"

end Level

/-- The value of a field, which a record keeps as a text. -/
inductive FieldValue
  | whole (i : Int)
  | flag (b : Bool)
  | text (s : String)
  /-- A text that is shown quoted. -/
  | quoted (s : String)
deriving DecidableEq, Repr

def FieldValue.display : FieldValue → String
  | whole i => toString i
  | flag b => Text.inspectBool b
  | text s => s
  | quoted s => Text.quote s

/-- One thing that was logged. -/
structure LogRecord where
  level : Level
  message : String
  fields : List (String × String) := []
  spans : List String := []
deriving DecidableEq, Repr

/-- The text of the first field of a name. -/
def LogRecord.field? (r : LogRecord) (name : String) : Option String :=
  (r.fields.find? (·.1 = name)).map (·.2)

/-- The fields as they are told to others. -/
def LogRecord.toldFields (r : LogRecord) : List (String × String) :=
  r.fields.map fun f => (f.1, Text.hideTaskNumbers f.2)

/-- The records so far, in the order in which they were logged. -/
abbrev Journal := List LogRecord

/-- `needle` occurs in `hay`. -/
def occursIn (needle : List Char) : List Char → Bool
  | [] => needle.isEmpty
  | c :: cs => needle.isPrefixOf (c :: cs) || occursIn needle cs

namespace Journal

/-- The records whose message contains a text. -/
def matching (j : Journal) (text : String) : Journal :=
  j.filter fun r => occursIn text.toList r.message.toList

/-- Some message contains a text. -/
def hasMessage (j : Journal) (text : String) : Bool :=
  j.any fun r => occursIn text.toList r.message.toList

/-- Some message of a level contains a text. -/
def hasRecord (j : Journal) (level : Level) (text : String) : Bool :=
  j.any fun r => r.level = level && occursIn text.toList r.message.toList

/-- How many records have a level. -/
def countAt (j : Journal) (level : Level) : Nat :=
  j.countP (·.level = level)

end Journal

end GatewayClient
