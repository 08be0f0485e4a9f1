import GatewayClient.Proofs.Number.Digits
import GatewayClient.Settings.Override

/-!
# Numbers in variables

How a number may be written in a variable is told without the reader: blanks, perhaps a plus sign,
one or more digits, and blanks again (`Numeral`). A text is read between two bounds exactly if it is
such a numeral and its value lies between the bounds (`range_reads_numerals`). One half of this is
that a numeral is taken apart where it was put together (`Numeral.inRange_text`): no digit is a
blank or a sign. The other half is that whatever is read can be put together
(`Numeral.exists_of_inRange`). A value beyond 32 bits lies between no bounds, and so it is refused
and not wrapped.
-/

namespace GatewayClient

/-- A plus sign or none. -/
def plusSign (plus : Bool) : List Char :=
  if plus then ['+'] else []

/-- A number as it may be written in a variable. -/
structure Numeral where
  before : List Char
  plus : Bool
  digits : List Char
  after : List Char
  blank_before : ∀ c ∈ before, Text.isBlank c = true
  digits_ne_nil : digits ≠ []
  isDigit_digits : ∀ c ∈ digits, c.isDigit = true
  blank_after : ∀ c ∈ after, Text.isBlank c = true

namespace Numeral

def text (m : Numeral) : String :=
  String.ofList (m.before ++ (plusSign m.plus ++ m.digits) ++ m.after)

def value (m : Numeral) : Nat :=
  Nat.ofDigitChars 10 m.digits 0

theorem isDigit_padding (n zeros : Nat) :
    ∀ c ∈ List.replicate zeros '0' ++ Nat.toDigits 10 n, c.isDigit = true := by
  refine List.forall_mem_append.mpr ⟨fun c hc => ?_, fun c hc => ?_⟩
  · rw [List.eq_of_mem_replicate hc]
    decide
  · exact Nat.isDigit_of_mem_toDigits (by decide) (by decide) hc

/-- A number with zeros in front of its digits, a sign or none, and blanks around. -/
def padded (n zeros : Nat) (plus : Bool) (before after : List Char)
    (hbefore : ∀ c ∈ before, Text.isBlank c = true) (hafter : ∀ c ∈ after, Text.isBlank c = true) :
    Numeral where
  before := before
  plus := plus
  digits := List.replicate zeros '0' ++ Nat.toDigits 10 n
  after := after
  blank_before := hbefore
  digits_ne_nil := List.append_ne_nil_of_right_ne_nil _ Nat.toDigits_ne_nil
  isDigit_digits := isDigit_padding n zeros
  blank_after := hafter

@[simp]
theorem value_padded {n zeros : Nat} {plus : Bool} {before after : List Char}
    (hbefore : ∀ c ∈ before, Text.isBlank c = true) (hafter : ∀ c ∈ after, Text.isBlank c = true) :
    (padded n zeros plus before after hbefore hafter).value = n := by
  rw [value, padded, Nat.ofDigitChars_append, Nat.ofDigitChars_replicate_zero, Nat.mul_zero,
    Nat.ofDigitChars_ten_toDigits]

end Numeral

variable {cs digits : List Char} {text : String} {min max n w : UInt32} {m : Numeral}

/-! ## The sign and the digits -/

theorem fitting_eq_some {o : Option Nat} :
    (o.bind fun n => if n < UInt32.size then some n.toUInt32 else none) = some w ↔
      o = some w.toNat := by
  constructor
  · intro h
    obtain ⟨n, rfl, hfits⟩ := Option.bind_eq_some_iff.mp h
    split at hfits
    · next hlt =>
      rw [← Option.some.inj hfits]
      exact congrArg some (UInt32.toNat_ofNat_of_lt' hlt).symm
    · cases hfits
  · rintro rfl
    rw [Option.bind_some, if_pos w.toNat_lt_size]
    exact congrArg some UInt32.ofNat_toNat

theorem uint32OfDigits?_plus :
    uint32OfDigits? ('+' :: digits) = some w ↔ natOfDigits? digits = some w.toNat :=
  fitting_eq_some

theorem uint32OfDigits?_bare (hbare : ∀ rest, cs ≠ '+' :: rest) :
    uint32OfDigits? cs = some w ↔ natOfDigits? cs = some w.toNat := by
  unfold uint32OfDigits?
  split
  · next rest => exact absurd rfl (hbare rest)
  · exact fitting_eq_some

theorem uint32OfDigits?_digits {plus : Bool} (hdigits : ∀ c ∈ digits, c.isDigit = true) :
    uint32OfDigits? (plusSign plus ++ digits) = some w ↔ natOfDigits? digits = some w.toNat := by
  cases plus with
  | true => exact uint32OfDigits?_plus
  | false =>
    -- Without a sign the first digit could only be mistaken for one.
    refine uint32OfDigits?_bare fun rest hcs => ?_
    obtain rfl : digits = '+' :: rest := hcs
    exact absurd (hdigits '+' List.mem_cons_self) (by decide)

/-- What is read is a sign or none, and the digits of the word. -/
theorem exists_of_uint32OfDigits? (hread : uint32OfDigits? cs = some w) :
    ∃ plus digits, cs = plusSign plus ++ digits ∧ natOfDigits? digits = some w.toNat := by
  by_cases hplus : ∃ rest, cs = '+' :: rest
  · obtain ⟨rest, rfl⟩ := hplus
    exact ⟨true, rest, rfl, uint32OfDigits?_plus.mp hread⟩
  · refine ⟨false, cs, rfl, (uint32OfDigits?_bare fun rest hcs => ?_).mp hread⟩
    exact hplus ⟨rest, hcs⟩

/-! ## The blanks and the bounds -/

theorem isBlank_of_isDigit {c : Char} (hc : c.isDigit = true) : Text.isBlank c = false := by
  obtain ⟨hge, hle⟩ := Char.isDigit_iff_toNat.mp hc
  have hge : 48 ≤ c.toNat := hge
  have hle : c.toNat ≤ 57 := hle
  simp only [Text.isBlank, Bool.or_eq_false_iff, Bool.and_eq_false_iff, decide_eq_false_iff_not,
    beq_eq_false_iff_ne]
  omega

theorem uint32InRange?_eq_some :
    uint32InRange? text min max = some n ↔
      uint32OfDigits? (Text.trim text.toList) = some n ∧ min ≤ n ∧ n ≤ max := by
  unfold uint32InRange?
  rw [Option.bind_eq_some_iff]
  constructor
  · rintro ⟨k, hk, hrange⟩
    split at hrange
    · next hbounds => exact Option.some.inj hrange ▸ ⟨hk, hbounds⟩
    · cases hrange
  · rintro ⟨hn, hbounds⟩
    exact ⟨n, hn, if_pos hbounds⟩

namespace Numeral

theorem trim_text (m : Numeral) : Text.trim m.text.toList = plusSign m.plus ++ m.digits := by
  have hsign : ∀ c ∈ plusSign m.plus, Text.isBlank c = false := by
    cases m.plus with
    | true => exact List.forall_mem_singleton.mpr (by decide)
    | false => exact List.forall_mem_nil _
  have hdigits : ∀ c ∈ m.digits, Text.isBlank c = false :=
    fun c hc => isBlank_of_isDigit (m.isDigit_digits c hc)
  rw [text, String.toList_ofList]
  exact Text.trim_append m.blank_before (List.forall_mem_append.mpr ⟨hsign, hdigits⟩) m.blank_after

theorem inRange_text :
    uint32InRange? m.text min max = some n ↔ m.value = n.toNat ∧ min ≤ n ∧ n ≤ max := by
  rw [uint32InRange?_eq_some, trim_text, uint32OfDigits?_digits m.isDigit_digits,
    natOfDigits?_digits m.digits_ne_nil m.isDigit_digits, Option.some_inj]
  rfl

/-- Only numerals are read. -/
theorem exists_of_inRange (hread : uint32InRange? text min max = some n) :
    ∃ m : Numeral, m.text = text := by
  obtain ⟨before, after, hbefore, hafter, htext⟩ := Text.exists_trim text.toList
  obtain ⟨hword, -⟩ := uint32InRange?_eq_some.mp hread
  obtain ⟨plus, digits, hsplit, hnumber⟩ := exists_of_uint32OfDigits? hword
  obtain ⟨hne, hdigits, -⟩ := natOfDigits?_eq_some.mp hnumber
  refine ⟨⟨before, plus, digits, after, hbefore, hne, hdigits, hafter⟩, ?_⟩
  rw [Numeral.text, ← hsplit, htext, String.ofList_toList]

end Numeral

open Numeral

/-- **A text is read between two bounds exactly if it is a numeral with a value between them.** So
each number between the bounds is read however it is padded, and one beyond 32 bits is not read. It
is the same to read the digits into a word, each step checked. -/
theorem range_reads_numerals (min max : UInt32) :
    (∀ (text : String) (n : UInt32), uint32InRange? text min max = some n ↔
        ∃ m : Numeral, m.text = text ∧ m.value = n.toNat ∧ min ≤ n ∧ n ≤ max)
      ∧ (∀ (n : UInt32) (zeros : Nat) (plus : Bool) (before after : List Char)
        (hbefore : ∀ c ∈ before, Text.isBlank c = true)
        (hafter : ∀ c ∈ after, Text.isBlank c = true), min ≤ n → n ≤ max →
          uint32InRange? (padded n.toNat zeros plus before after hbefore hafter).text min max =
            some n)
      ∧ (∀ m : Numeral, UInt32.size ≤ m.value → uint32InRange? m.text min max = none)
      ∧ ∀ m : Numeral, uint32InRange? m.text min max =
        (m.digits.foldlM appendDigit? 0).filter fun n => min ≤ n ∧ n ≤ max := by
  refine ⟨fun text n => ⟨?read, ?written⟩, ?padded, ?tooGreat, ?words⟩
  case read =>
    intro hread
    obtain ⟨m, rfl⟩ := exists_of_inRange hread
    exact ⟨m, rfl, inRange_text.mp hread⟩
  case written =>
    rintro ⟨m, rfl, hm⟩
    exact inRange_text.mpr hm
  case padded =>
    intro n zeros plus before after hbefore hafter hmin hmax
    exact inRange_text.mpr ⟨value_padded hbefore hafter, hmin, hmax⟩
  case tooGreat =>
    intro m hgreat
    rw [Option.eq_none_iff_forall_ne_some]
    intro n hn
    have hlt := n.toNat_lt_size
    rw [← (inRange_text.mp hn).1] at hlt
    exact absurd hgreat (Nat.not_le_of_lt hlt)
  case words =>
    intro m
    refine Option.ext fun n => ?_
    rw [inRange_text, Option.filter_eq_some_iff, foldlM_appendDigit?_eq_some m.isDigit_digits,
      decide_eq_true_iff]
    rfl

/-- The first number that a word has no room for. -/
def overflowing : Numeral :=
  padded 0x100000000 0 false [] [] (List.forall_mem_nil _) (List.forall_mem_nil _)

/-- A padded numeral and one that is too great. -/
theorem range_reads_numerals_padded :
    uint32InRange? "\u2003\t+007\u00a0" 1 10 = some 7
      ∧ uint32InRange? "4294967296" 0 0xFFFFFFFF = none := by
  obtain ⟨-, hpadded, -, -⟩ := range_reads_numerals 1 10
  obtain ⟨-, -, htooGreat, -⟩ := range_reads_numerals 0 0xFFFFFFFF
  constructor
  · exact hpadded 7 2 true ['\u2003', '\t'] ['\u00a0'] (by simp [Text.isBlank])
      (by simp [Text.isBlank]) (by decide) (by decide)
  · exact htooGreat overflowing (by simp [overflowing, UInt32.size])

end GatewayClient
