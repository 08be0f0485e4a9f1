import GatewayClient.Number.Binary64

/-!
# Doubles as decimals

The decimal of a magnitude has the fewest digits that read back as it, and of those the digits
nearest to it. For each count of digits the two neighbours of the magnitude on the grid of that
count are tested against the interval of numbers that round to the magnitude; the first grid with
a hit wins. A `DecimalStyle` says how sign, digits and power of ten are written.
-/

namespace GatewayClient

/-- The number `digits * 10 ^ exponent`. -/
structure Decimal where
  digits : Nat
  exponent : Int
deriving DecidableEq, Repr

/-- The count of decimal digits of a number, none for zero. -/
def decimalLength (n : Nat) : Nat :=
  if n = 0 then 0 else (Nat.toDigits 10 n).length

/-- The count of digits before the decimal point of a positive quotient: the `p` with
`10 ^ (p - 1) ≤ num / den < 10 ^ p`. -/
def decimalOrder (num den : Nat) : Int :=
  if den ≤ num then decimalLength (num / den)
  else 1 - decimalLength ((den + num - 1) / num - 1)

/-- The numbers that round to a magnitude, in units of a quarter of the gap above it. -/
structure RoundingInterval where
  low : Nat
  high : Nat
  den : Nat
  closed : Bool

namespace Magnitude

/-- The interval of numbers that round to a positive magnitude. Below a power of two the gap is
half as wide; the ends belong to the interval when the mantissa is even. -/
def interval (x : Magnitude) : RoundingInterval :=
  let e := x.exponent - 2
  let unit := Nat.pow 2 e.toNat
  let below := if x.mantissa = Nat.pow 2 52 ∧ -1074 < x.exponent then 1 else 2
  { low := (4 * x.mantissa - below) * unit
    high := (4 * x.mantissa + 2) * unit
    den := Nat.pow 2 (-e).toNat
    closed := x.mantissa % 2 = 0 }

end Magnitude

/-- Holds of the decimals inside the interval. -/
def RoundingInterval.contains (r : RoundingInterval) (d : Decimal) : Bool :=
  let value := d.digits * Nat.pow 10 d.exponent.toNat * r.den
  let scale := Nat.pow 10 (-d.exponent).toNat
  if r.closed then r.low * scale ≤ value && value ≤ r.high * scale
  else r.low * scale < value && value < r.high * scale

/-- Drops the trailing zeros of the digits, at most `fuel` of them. -/
def Decimal.trim : Nat → Decimal → Decimal
  | 0, d => d
  | fuel + 1, d =>
    if d.digits % 10 = 0 && d.digits != 0 then trim fuel ⟨d.digits / 10, d.exponent + 1⟩ else d

namespace Magnitude

/-- The neighbour of the magnitude with `count` digits that reads back as it, if there is one: of
two the nearer. -/
def neighbour? (tie : Tie) (x : Magnitude) (order : Int) (count : Nat) : Option Decimal :=
  let k := order - count
  let num := x.num * Nat.pow 10 (-k).toNat
  let den := x.den * Nat.pow 10 k.toNat
  let below : Decimal := ⟨num / den, k⟩
  let above : Decimal := ⟨num / den + 1, k⟩
  match x.interval.contains below, x.interval.contains above with
  | true, true => some (if divNear tie num den = below.digits then below else above)
  | true, false => some below
  | false, true => some above
  | false, false => none

/-- The shortest decimal that reads back as a magnitude. Seventeen digits always do. -/
def shortest (tie : Tie) (x : Magnitude) : Decimal :=
  if x.mantissa = 0 then ⟨0, 0⟩
  else
    let order := decimalOrder x.num x.den
    match (List.range 17).findSome? fun i => x.neighbour? tie order (i + 1) with
    | some d => d.trim 17
    | none => ⟨x.num * Nat.pow 10 (17 - order).toNat / x.den, order - 17⟩

end Magnitude

/-- How a decimal is written. -/
structure DecimalStyle where
  /-- Which of two shortest decimals stands for a number halfway between them. -/
  tie : Tie
  /-- The powers of ten of the first digit, from the least to the greatest, with which a number is
  written without an exponent; all of them if missing. -/
  positional : Option (Int × Int)
  /-- A whole number written without an exponent ends in `.0`. -/
  pointZero : Bool
  /-- An exponent that is not negative has a plus sign. -/
  plus : Bool

namespace DecimalStyle

/-- The digits around a decimal point that follows the first `point` of them. -/
def place (style : DecimalStyle) (digits : List Char) (point : Int) : List Char :=
  let length : Int := digits.length
  if point ≤ 0 then ['0', '.'] ++ List.replicate (-point).toNat '0' ++ digits
  else if length ≤ point then
    digits ++ List.replicate (point - length).toNat '0' ++
      (if style.pointZero then ['.', '0'] else [])
  else digits.take point.toNat ++ '.' :: digits.drop point.toNat

/-- The digits with a point after the first and an exponent behind them. -/
def scale (style : DecimalStyle) (digits : List Char) (exponent : Int) : List Char :=
  digits.take 1 ++ (if 1 < digits.length then '.' :: digits.drop 1 else []) ++ ['e'] ++
    (if exponent < 0 then ['-'] else if style.plus then ['+'] else []) ++
    Nat.toDigits 10 exponent.natAbs

/-- A decimal in the style. -/
def write (style : DecimalStyle) (d : Decimal) : List Char :=
  let digits := Nat.toDigits 10 d.digits
  let point : Int := digits.length + d.exponent
  let first := point - 1
  if style.positional.all fun span => span.1 ≤ first && first ≤ span.2 then
    style.place digits point
  else style.scale digits first

/-- A double in the style. -/
def render (style : DecimalStyle) : Binary64 → String
  | .nan => "NaN"
  | .infinite negative => (if negative then "-" else "") ++ "inf"
  | .finite negative size =>
    (if negative then "-" else "") ++ String.ofList (style.write (size.shortest style.tie))

end DecimalStyle

end GatewayClient
