import GatewayClient.Number.Binary64

/-!
# Reading numerals

Two readings. `natOfDigits?` reads a run of digits. `Binary64.ofText?` reads a sign and a name of
a double that is not finite, or a decimal numeral with an optional fraction and exponent, and
rounds once.
-/

namespace GatewayClient

/-- The value of a decimal digit. -/
def digit? (c : Char) : Option Nat :=
  if '0' ≤ c && c ≤ '9' then some (c.toNat - '0'.toNat) else none

/-- The longest run of digits at the front, and what follows it. -/
def digitRun : List Char → List Nat × List Char
  | [] => ([], [])
  | c :: rest =>
    match digit? c with
    | some d => let (run, tail) := digitRun rest; (d :: run, tail)
    | none => ([], c :: rest)

/-- The number that a run of decimal digits stands for. -/
def valueOfDigits (run : List Nat) : Nat :=
  run.foldl (fun n d => 10 * n + d) 0

/-- A text of one or more digits and nothing else. -/
def natOfDigits? (cs : List Char) : Option Nat :=
  match digitRun cs with
  | ([], _) => none
  | (run, []) => some (valueOfDigits run)
  | (_, _ :: _) => none

namespace Binary64

/-- A minus sign, a plus sign or none, and what follows. -/
def splitSign : List Char → Bool × List Char
  | '-' :: rest => (true, rest)
  | '+' :: rest => (false, rest)
  | cs => (false, cs)

/-- An exponent part, which may be missing. -/
def exponentPart? : List Char → Option Int
  | [] => some 0
  | 'e' :: rest | 'E' :: rest =>
    let (negative, digits) := splitSign rest
    (natOfDigits? digits).map fun n => if negative then -(n : Int) else n
  | _ => none

/-- A numeral without its sign: digits, perhaps with a point among them, and an exponent. -/
def unsigned? (negative : Bool) (cs : List Char) : Option Binary64 :=
  let (whole, rest) := digitRun cs
  let (fraction, tail) :=
    match rest with
    | '.' :: after => digitRun after
    | _ => ([], rest)
  if whole.isEmpty && fraction.isEmpty then none
  else (exponentPart? tail).map fun e =>
    ofDecimal negative (valueOfDigits (whole ++ fraction)) (e - fraction.length)

/-- The double that a text names. -/
def ofText? (s : String) : Option Binary64 :=
  let (negative, cs) := splitSign s.toList
  match String.ofList (cs.map Char.toLower) with
  | "inf" | "infinity" => some (.infinite negative)
  | "nan" => some .nan
  | _ => unsigned? negative cs

end Binary64

end GatewayClient
