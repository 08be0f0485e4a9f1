import GatewayClient.Log.Record
import GatewayClient.Number.Numeral
import GatewayClient.Settings.Basic
import GatewayClient.Text.Blank

/-!
# Overrides from the environment

One variable governs each setting that the environment can override. A variable that is missing or
empty changes nothing; an invalid one is reported and changes nothing. The variables are read in a
fixed order.
-/

namespace GatewayClient

/-- A truth value by one of its words, in any case. No letter outside the ASCII range has a lower
case made of the letters of these words, so ASCII case is enough. -/
def boolOfWord? (text : String) : Option Bool :=
  match String.ofList (text.toList.map Char.toLower) with
  | "true" | "1" | "yes" | "on" => some true
  | "false" | "0" | "no" | "off" => some false
  | _ => none

/-- A number of 32 bits in decimal digits, perhaps with a plus sign. -/
def uint32OfDigits? (cs : List Char) : Option UInt32 :=
  let digits :=
    match cs with
    | '+' :: rest => rest
    | _ => cs
  (natOfDigits? digits).bind fun n => if n < UInt32.size then some n.toUInt32 else none

/-- A number of 32 bits between two bounds, both included, with blanks around it. -/
def uint32InRange? (text : String) (min max : UInt32) : Option UInt32 :=
  (uint32OfDigits? (Text.trim text.toList)).bind fun n =>
    if min ≤ n ∧ n ≤ max then some n else none

/-- A variable and the setting it governs. -/
structure Override where
  name : String
  /-- The settings with the value of the variable, or what is said of an invalid value. -/
  put : String → ClientSettings → Except String ClientSettings

namespace Override

/-- An override by a value that has to be parsed. -/
def parsed {α : Type} (name complaint : String) (parse? : String → Option α)
    (write : α → ClientSettings → ClientSettings) : Override where
  name := name
  put v s :=
    match parse? v with
    | some a => .ok (write a s)
    | none => .error complaint

/-- All overrides, in the order in which they are applied. -/
def all : List Override :=
  [⟨"RELAY_TOKEN", fun v s => .ok { s with token := some v }⟩,
   parsed "RELAY_ACCOUNT_TYPE" "invalid account type env var, ignoring" AccountType.ofName?
     fun a s => { s with accountType := a },
   parsed "RELAY_TOTAL_SHARDS" "invalid u32 env var, ignoring"
     (uint32InRange? · 1 0xFFFFFFFF) fun n s => { s with totalShards := n },
   parsed "RELAY_CURRENT_SHARD" "invalid u32 env var, ignoring"
     (uint32InRange? · 0 0xFFFFFFFE) fun n s => { s with currentShard := n },
   parsed "RELAY_WAIT_FOR_SERVERS" "invalid boolean env var, ignoring" boolOfWord?
     fun b s => { s with waitForServersOnStartup := b },
   parsed "RELAY_TRUST_ALL_CERTIFICATES" "invalid boolean env var, ignoring" boolOfWord?
     fun b s => { s with trustAllCertificates := b },
   ⟨"RELAY_PROXY_URL", fun v s =>
     .ok { s with proxy := { s.proxy with mode := .url, url := some v } }⟩,
   ⟨"RELAY_LOG_LEVEL", fun v s => .ok { s with logging := { s.logging with level := v } }⟩]

/-- The record for an invalid value of a variable. -/
def warning (name complaint value : String) : LogRecord :=
  { level := .warn, message := complaint, fields := [("key", name), ("value", value)] }

theorem warning_eq (name complaint value : String) : warning name complaint value =
    { level := .warn, message := complaint, fields := [("key", name), ("value", value)] } := rfl

/-- One override under a lookup of variables. -/
def apply (o : Override) (lookup : String → Option String) (s : ClientSettings) :
    ClientSettings × Journal :=
  match lookup o.name with
  | none => (s, [])
  | some v =>
    if v.isEmpty then (s, [])
    else
      match o.put v s with
      | .ok changed => (changed, [])
      | .error complaint => (s, [warning o.name complaint v])

/-- Overrides one after the other. -/
def applyEach (lookup : String → Option String) :
    List Override → ClientSettings → ClientSettings × Journal
  | [], s => (s, [])
  | o :: rest, s =>
    let (changed, warnings) := o.apply lookup s
    let (final, more) := applyEach lookup rest changed
    (final, warnings ++ more)

end Override

/-- The settings with all overrides of the environment, and the warnings about invalid ones. -/
def ClientSettings.override (s : ClientSettings) (lookup : String → Option String) :
    ClientSettings × Journal :=
  Override.applyEach lookup Override.all s

end GatewayClient
