/-!
# Doubles

A finite double is a sign and a magnitude `mantissa * 2 ^ exponent`. Each operation is exact on
rationals and rounds once, to the nearest magnitude and to the even mantissa on a tie, so all of
it can be computed and reasoned about with natural numbers.
-/

namespace GatewayClient

/-- Which neighbour a value takes that lies halfway between two. -/
inductive Tie
  | even
  | up
deriving DecidableEq, Repr

/-- The size of a finite double. The mantissa is below `2 ^ 53`, and below `2 ^ 52` only with the
least exponent, `-1074`; so each size has one representation. -/
structure Magnitude where
  mantissa : Nat
  exponent : Int
deriving DecidableEq, Repr

namespace Magnitude

def zero : Magnitude := ⟨0, -1074⟩

def one : Magnitude := ⟨Nat.pow 2 52, -52⟩

/-- The numerator of the value over `den`. -/
def num (x : Magnitude) : Nat := x.mantissa * Nat.pow 2 x.exponent.toNat

/-- The power of two that divides `num` in the value. -/
def den (x : Magnitude) : Nat := Nat.pow 2 (-x.exponent).toNat

/-- A quotient rounded to the nearest natural number. -/
def divNear (tie : Tie) (num den : Nat) : Nat :=
  let q := num / den
  let twice := 2 * (num % den)
  if twice < den then q else if den < twice then q + 1
  else
    match tie with
    | .even => q + q % 2
    | .up => q + 1

/-- The exponent with which `num / den` has a mantissa of 53 bits, or the least exponent. Between
the two logarithms lies the quotient's own, up to one. -/
def exponentOf (num den : Nat) : Int :=
  let low : Int := (num.log2 : Int) - den.log2 - 53
  let fits := num * Nat.pow 2 (-low).toNat < Nat.pow 2 53 * (den * Nat.pow 2 low.toNat)
  max (-1074) (if fits then low else low + 1)

/-- The magnitude nearest to `num / den`, or none if the quotient lies above all of them. -/
def nearest (num den : Nat) : Option Magnitude :=
  if num = 0 then some zero
  else
    let e := exponentOf num den
    let m := divNear .even (num * Nat.pow 2 (-e).toNat) (den * Nat.pow 2 e.toNat)
    let rounded : Magnitude := if m = Nat.pow 2 53 then ⟨Nat.pow 2 52, e + 1⟩ else ⟨m, e⟩
    if rounded.exponent ≤ 971 then some rounded else none

def add (x y : Magnitude) : Option Magnitude :=
  nearest (x.num * y.den + y.num * x.den) (x.den * y.den)

def mul (x y : Magnitude) : Option Magnitude :=
  nearest (x.num * y.num) (x.den * y.den)

/-- The quotient by a magnitude other than zero. -/
def div (x y : Magnitude) : Option Magnitude :=
  nearest (x.num * y.den) (x.den * y.num)

/-- The nearest whole number; a half goes up. -/
def round (x : Magnitude) : Nat :=
  divNear .up x.num x.den

end Magnitude

/-- A double. -/
inductive Binary64
  | finite (negative : Bool) (size : Magnitude)
  | infinite (negative : Bool)
  | nan
deriving DecidableEq, Repr

namespace Binary64

def zero : Binary64 := .finite false .zero

/-- A rounded size with its sign; a size above all magnitudes is infinite. -/
def signed (negative : Bool) : Option Magnitude → Binary64
  | some size => .finite negative size
  | none => .infinite negative

/-- The double nearest to a whole number. -/
def ofInt (i : Int) : Binary64 :=
  signed (i < 0) (Magnitude.nearest i.natAbs 1)

def neg : Binary64 → Binary64
  | .finite negative size => .finite (!negative) size
  | .infinite negative => .infinite (!negative)
  | .nan => .nan

/-- Equality of values: the two zeros are equal, and a NaN equals nothing. -/
def eqv : Binary64 → Binary64 → Bool
  | .finite s x, .finite t y => x == y && (s == t || x.mantissa == 0)
  | .infinite s, .infinite t => s == t
  | _, _ => false

def isFinite : Binary64 → Bool
  | .finite _ _ => true
  | _ => false

/-- Lies between zero and one, both included. -/
def isUnit : Binary64 → Bool
  | .finite negative size => (!negative || size.mantissa == 0) && size.num ≤ size.den
  | _ => false

/-- The nearest value between zero and one, as a magnitude; a NaN has none. -/
def clampUnit : Binary64 → Option Magnitude
  | .nan => none
  | .infinite true => some .zero
  | .infinite false => some .one
  | .finite true _ => some .zero
  | .finite false size => some (if size.num ≤ size.den then size else .one)

/-- The double nearest to `digits * 10 ^ exponent`. A power of ten beyond all magnitudes is not
computed. -/
def ofDecimal (negative : Bool) (digits : Nat) (exponent : Int) : Binary64 :=
  let order := ((Nat.toDigits 10 digits).length : Int) + exponent
  if digits = 0 || order < -400 then .finite negative .zero
  else if 400 < order then .infinite negative
  else
    signed negative
      (Magnitude.nearest (digits * Nat.pow 10 exponent.toNat) (Nat.pow 10 (-exponent).toNat))

end Binary64

end GatewayClient
