import GatewayClient.Json.Basic
import GatewayClient.Number.Numeral

/-!
# JSON numerals

A numeral without a fraction and an exponent that fits in 64 bits is a whole number; every other
numeral is a double. The digits that fit in 64 bits are the significand. It is rounded first, and
then multiplied or divided by the power of ten, rounding again; a power beyond `10 ^ 308` is
divided out in steps. So a numeral with a long significand or a large exponent may read as a
neighbour of the nearest double.
-/

namespace GatewayClient.Json

/-- Why a text is not JSON: it cannot be continued to one, or it ends too early. -/
inductive ReadError
  | malformed
  | unfinished
deriving DecidableEq, Repr

/-- What a reader found at the front of a text, and the rest of the text. -/
abbrev Reading (α : Type) := Except ReadError (α × List Char)

/-- Appends digits to a significand as long as it stays below `2 ^ 64`; returns the digits that
did not fit. -/
def fill (significand : Nat) : List Nat → Nat × List Nat
  | [] => (significand, [])
  | d :: ds =>
    if 10 * significand + d < UInt64.size then fill (10 * significand + d) ds
    else (significand, d :: ds)

/-- A magnitude times `10 ^ exponent`, in at most `steps` steps of `10 ^ -308` and a last one;
none above all magnitudes. -/
def scaleByTen (size : Magnitude) (exponent : Int) : Nat → Option Magnitude
  | 0 => some .zero
  | steps + 1 =>
    if exponent.natAbs ≤ 308 then
      (Magnitude.nearest (Nat.pow 10 exponent.natAbs) 1).bind fun power =>
        if 0 ≤ exponent then size.mul power else size.div power
    else if size = .zero then some size
    else if 0 ≤ exponent then none
    else
      ((Magnitude.nearest (Nat.pow 10 308) 1).bind size.div).bind fun smaller =>
        scaleByTen smaller (exponent + 308) steps

/-- The double `significand * 10 ^ exponent`. A significand below `2 ^ 64` is gone after two steps
of `10 ^ -308`. -/
def scaled (negative : Bool) (significand : Nat) (exponent : Int) : Except ReadError Number :=
  match (Magnitude.nearest significand 1).bind fun size => scaleByTen size exponent 4 with
  | some size => .ok (.float (.finite negative size))
  | none => .error .malformed

/-- The digits of an exponent. An exponent above `2 ^ 31 - 1` stands for zero or is refused. -/
def exponentDigits (negative : Bool) (significand : Nat) (start : Int) (down : Bool) :
    List Char → Reading Number
  | [] => .error .unfinished
  | c :: cs =>
    match digitRun (c :: cs) with
    | ([], _) => .error .malformed
    | (run, rest) =>
      let e := valueOfDigits run
      if e < 0x80000000 then
        (scaled negative significand (if down then start - e else start + e)).map (·, rest)
      else if significand ≠ 0 ∧ ¬ down then .error .malformed
      else .ok (.float (.finite negative .zero), rest)

/-- What follows the `e` of a numeral. -/
def exponentPart (negative : Bool) (significand : Nat) (start : Int) :
    List Char → Reading Number
  | '+' :: rest => exponentDigits negative significand start false rest
  | '-' :: rest => exponentDigits negative significand start true rest
  | rest => exponentDigits negative significand start false rest

/-- What follows the digits of a numeral that is a double: an exponent or nothing. -/
def doubleTail (negative : Bool) (significand : Nat) (start : Int) :
    List Char → Reading Number
  | 'e' :: rest | 'E' :: rest => exponentPart negative significand start rest
  | rest => (scaled negative significand start).map (·, rest)

/-- What follows the point of a numeral. -/
def fractionPart (negative : Bool) (significand : Nat) (start : Int) :
    List Char → Reading Number
  | [] => .error .unfinished
  | c :: cs =>
    match digitRun (c :: cs) with
    | ([], _) => .error .malformed
    | (run, rest) =>
      let (filled, left) := fill significand run
      doubleTail negative filled (start - (run.length - left.length)) rest

/-- A whole number; zero with a minus sign and numbers below `-2 ^ 63` are doubles. -/
def whole (negative : Bool) (significand : Nat) : Number :=
  if negative then
    if 0 < significand ∧ significand ≤ 0x8000000000000000 then .int (-significand)
    else .float (.neg (.ofInt significand))
  else .int significand

/-- What follows the digits before the point. `start` counts the digits that did not fit in the
significand. -/
def numberTail (negative : Bool) (significand start : Nat) : List Char → Reading Number
  | '.' :: rest => fractionPart negative significand start rest
  | 'e' :: rest => doubleTail negative significand start ('e' :: rest)
  | 'E' :: rest => doubleTail negative significand start ('E' :: rest)
  | rest =>
    if start = 0 then .ok (whole negative significand, rest)
    else doubleTail negative significand start rest

/-- A numeral behind its sign. No digit follows a leading zero. -/
def readNumber (negative : Bool) : List Char → Reading Number
  | [] => .error .unfinished
  | '0' :: rest =>
    match rest with
    | c :: _ => if (digit? c).isSome then .error .malformed else numberTail negative 0 0 rest
    | [] => numberTail negative 0 0 rest
  | cs =>
    match digitRun cs with
    | ([], _) => .error .malformed
    | (run, rest) =>
      let (significand, left) := fill 0 run
      numberTail negative significand left.length rest

end GatewayClient.Json
