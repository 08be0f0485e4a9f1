import GatewayClient.Number.Decimal

/-!
# JSON values

A value keeps the difference between whole numbers and doubles. An object is the list of its
entries; `insertEntry` keeps the keys in strictly increasing order, so an object built by it has
one representation and the last entry written for a key is the one it holds.
-/

namespace GatewayClient

/-- A number: whole, or a double. -/
inductive Number
  | int (value : Int)
  | float (value : Binary64)
deriving DecidableEq, Repr

inductive Json
  | null
  | bool (value : Bool)
  | num (value : Number)
  | str (value : String)
  | arr (items : List Json)
  | obj (entries : List (String × Json))
deriving Repr

/-- Equality of numbers: a whole number never equals a double. -/
def Number.eqv : Number → Number → Bool
  | .int a, .int b => a == b
  | .float a, .float b => a.eqv b
  | _, _ => false

namespace Json

instance : Inhabited Json := ⟨.null⟩

def ofInt (i : Int) : Json := .num (.int i)

/-- A double. No number stands for one that is not finite, so it is `null`. -/
def ofDouble (x : Binary64) : Json :=
  if x.isFinite then .num (.float x) else .null

/-- A value that may be missing; `null` stands for it then. -/
def ofOption : Option Json → Json
  | some value => value
  | none => .null

def isNull : Json → Bool
  | .null => true
  | _ => false

def lookup (key : String) : List (String × Json) → Option Json
  | [] => none
  | (k, v) :: rest => if k = key then some v else lookup key rest

/-- The value of a key of an object. Other values have no keys. -/
def get? : Json → String → Option Json
  | .obj entries, key => lookup key entries
  | _, _ => none

/-- Writes a key among entries in increasing order. -/
def insertEntry (key : String) (value : Json) : List (String × Json) → List (String × Json)
  | [] => [(key, value)]
  | (k, v) :: rest =>
    if key < k then (key, value) :: (k, v) :: rest
    else if key = k then (key, value) :: rest
    else (k, v) :: insertEntry key value rest

/-- The object with the given entries; a later entry for a key replaces an earlier one. -/
def ofEntries (entries : List (String × Json)) : Json :=
  .obj (entries.foldl (fun o e => insertEntry e.1 e.2 o) [])

def asString? : Json → Option String
  | .str s => some s
  | _ => none

/-- Fits in 64 bits with a sign. -/
def inInt64 (i : Int) : Bool :=
  -0x8000000000000000 ≤ i && i < 0x8000000000000000

/-- A whole number that fits in 64 bits with a sign. -/
def asInt64? : Json → Option Int
  | .num (.int i) => if inInt64 i then some i else none
  | _ => none

mutual

/-- Equality of values, with numbers compared by `Number.eqv`. -/
def eqv : Json → Json → Bool
  | .null, .null => true
  | .bool a, .bool b => a == b
  | .num a, .num b => a.eqv b
  | .str a, .str b => a == b
  | .arr as, .arr bs => eqvItems as bs
  | .obj as, .obj bs => eqvEntries as bs
  | _, _ => false

def eqvItems : List Json → List Json → Bool
  | [], [] => true
  | a :: as, b :: bs => eqv a b && eqvItems as bs
  | _, _ => false

def eqvEntries : List (String × Json) → List (String × Json) → Bool
  | [], [] => true
  | (j, a) :: as, (k, b) :: bs => j == k && eqv a b && eqvEntries as bs
  | _, _ => false

end

end Json

end GatewayClient
