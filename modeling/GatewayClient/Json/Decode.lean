import GatewayClient.Json.Writer
import GatewayClient.Text.Quoted

/-!
# Decoding typed values

A value is decoded into a type of the library, or there is one cause why not. Scalars are never
converted into each other, except that a double may be given as a whole number. A record is given
as an object, whose entries are visited in the order of their keys and whose unknown keys do not
count, or as the list of its fields in order.
-/

namespace GatewayClient.Json

/-- What a value is, as far as a decoder that refuses it tells. -/
inductive Shape
  | null
  | bool (value : Bool)
  | num (value : Number)
  | str (value : String)
  | sequence
  | map
deriving DecidableEq, Repr

def shape : Json → Shape
  | .null => .null
  | .bool b => .bool b
  | .num n => .num n
  | .str s => .str s
  | .arr _ => .sequence
  | .obj _ => .map

def Shape.describe : Shape → String
  | .null => "null"
  | .bool true => "boolean `true`"
  | .bool false => "boolean `false`"
  | .num (.int i) => "integer `" ++ toString i ++ "`"
  | .num (.float x) => "floating point `" ++ numeralStyle.render x ++ "`"
  | .str s => "string " ++ Text.quote s
  | .sequence => "sequence"
  | .map => "map"

/-- Why a value does not decode. -/
inductive DecodeError
  | wrongType (found : Shape) (expected : String)
  | outOfRange (value : Int) (expected : String)
  | notOneEntry
  | unknownVariant (name : String) (variants : List String)
  | missingField (name : String)
  | tooFewItems (count : Nat) (record : String) (fields : Nat)
  | tooManyItems (count : Nat)
deriving DecidableEq, Repr

/-- The names that would have been accepted. -/
def describeVariants : List String → String
  | [a, b] => "expected `" ++ a ++ "` or `" ++ b ++ "`"
  | names => "expected one of " ++ ", ".intercalate (names.map fun n => "`" ++ n ++ "`")

def DecodeError.message : DecodeError → String
  | .wrongType found expected =>
    "invalid type: " ++ found.describe ++ ", expected " ++ expected
  | .outOfRange value expected =>
    "invalid value: " ++ (Shape.num (.int value)).describe ++ ", expected " ++ expected
  | .notOneEntry => "invalid value: map, expected map with a single key"
  | .unknownVariant name variants =>
    "unknown variant `" ++ name ++ "`, " ++ describeVariants variants
  | .missingField name => "missing field `" ++ name ++ "`"
  | .tooFewItems count record fields =>
    "invalid length " ++ toString count ++ ", expected struct " ++ record ++ " with " ++
      toString fields ++ " elements"
  | .tooManyItems count =>
    "invalid length " ++ toString count ++ ", expected fewer elements in array"

/-! ## Scalars -/

abbrev Decoded (α : Type) := Except DecodeError α

def decodeBool : Json → Decoded Bool
  | .bool b => .ok b
  | v => .error (.wrongType v.shape "a boolean")

def decodeString : Json → Decoded String
  | .str s => .ok s
  | v => .error (.wrongType v.shape "a string")

/-- A whole number below a bound, which `expected` names. -/
def decodeBelow (bound : Nat) (expected : String) : Json → Decoded Nat
  | .num (.int i) =>
    if 0 ≤ i ∧ i < bound then .ok i.toNat else .error (.outOfRange i expected)
  | v => .error (.wrongType v.shape expected)

def decodeUInt32 (v : Json) : Decoded UInt32 :=
  (decodeBelow UInt32.size "u32" v).map Nat.toUInt32

def decodeUInt64 (v : Json) : Decoded UInt64 :=
  (decodeBelow UInt64.size "u64" v).map Nat.toUInt64

def decodeDouble : Json → Decoded Binary64
  | .num (.float x) => .ok x
  | .num (.int i) => .ok (.ofInt i)
  | v => .error (.wrongType v.shape "f64")

/-- A value that may be missing, which `null` stands for. -/
def decodeOption {α : Type} (decode : Json → Decoded α) : Json → Decoded (Option α)
  | .null => .ok none
  | v => (decode v).map some

/-! ## Enumerations -/

/-- A constant among `variants`, by its name. -/
def variantNamed {α : Type} (variants : List (String × α)) (name : String) : Decoded α :=
  match variants.find? (·.1 = name) with
  | some v => .ok v.2
  | none => .error (.unknownVariant name (variants.map (·.1)))

/-- A constant, given as its name or as an object with its name as the only key and `null` as the
value. -/
def decodeVariant {α : Type} (variants : List (String × α)) : Json → Decoded α
  | .str name => variantNamed variants name
  | .obj [(name, value)] => do
    let a ← variantNamed variants name
    match value with
    | .null => .ok a
    | v => .error (.wrongType v.shape "unit")
  | .obj _ => .error .notOneEntry
  | v => .error (.wrongType v.shape "string or map")

/-! ## Records -/

/-- A field of a record under construction: its name and how a value is put into it. -/
structure Field (ρ : Type) where
  name : String
  put : Json → ρ → Decoded ρ

/-- A field that is decoded and then written. -/
def field {ρ α : Type} (name : String) (decode : Json → Decoded α) (write : α → ρ → ρ) :
    Field ρ :=
  ⟨name, fun v r => (decode v).map fun a => write a r⟩

/-- Puts the entries of an object into the fields of their names. -/
def putEntries {ρ : Type} (fields : List (Field ρ)) :
    List (String × Json) → ρ → Decoded ρ
  | [], r => .ok r
  | (key, v) :: rest, r =>
    match fields.find? (·.name = key) with
    | some f => (f.put v r).bind (putEntries fields rest)
    | none => putEntries fields rest r

/-- Puts the items of a list into the fields in order; returns how many items are left over. -/
def putItems {ρ : Type} : List (Field ρ) → List Json → ρ → Decoded (ρ × Nat)
  | f :: fields, v :: items, r => (f.put v r).bind (putItems fields items)
  | _, items, r => .ok (r, items.length)

/-- How a record was given. -/
inductive Layout
  | entries
  | items (count : Nat)

/-- Decodes a record over its initial fields. `finish` sees how it was given, and refuses it when
a required field is missing. -/
def decodeRecord {ρ α : Type} (name : String) (fields : List (Field ρ)) (start : ρ)
    (finish : Layout → ρ → Decoded α) : Json → Decoded α
  | .obj entries => (putEntries fields entries start).bind (finish .entries)
  | .arr items => do
    let (r, left) ← putItems fields items start
    let a ← finish (.items items.length) r
    if left = 0 then .ok a else .error (.tooManyItems items.length)
  | v => .error (.wrongType v.shape ("struct " ++ name))

/-- Decodes a record all of whose fields have a default. -/
def decodeDefaulted {ρ : Type} (name : String) (fields : List (Field ρ)) (default : ρ) :
    Json → Decoded ρ :=
  decodeRecord name fields default fun _ r => .ok r

/-- The value of a required field of a record with `total` fields. -/
def required {α : Type} (record : String) (total : Nat) (layout : Layout) (name : String) :
    Option α → Decoded α
  | some a => .ok a
  | none =>
    match layout with
    | .entries => .error (.missingField name)
    | .items count => .error (.tooFewItems count record total)

end GatewayClient.Json
