import Mathlib.Data.List.TakeWhile
import GatewayClient.Number.Numeral

/-!
# Runs of digits

A run of digits stands for its decimal value, `Nat.ofDigitChars 10`, however long it is. It is read
as this value, and nothing else is read (`natOfDigits?_eq_some`).

The value may also be found in a word of 32 bits, one digit after the other, where each product and
each sum is checked (`appendDigit?`). A value only grows with the digits that follow. So where one
step does not fit in the word, the value of the whole run does not either
(`foldlM_appendDigit?_eq_some`), and a run that is too long is refused instead of wrapped.
-/

namespace GatewayClient

variable {cs : List Char} {c : Char}

/-- The value of a digit. -/
def digitValue (c : Char) : Nat :=
  c.toNat - '0'.toNat

theorem digitValue_le (hc : c.isDigit = true) : digitValue c ≤ 9 := by
  obtain ⟨-, hle⟩ := Char.isDigit_iff_toNat.mp hc
  exact Nat.sub_le_sub_right hle _

theorem digit?_eq (c : Char) : digit? c = if c.isDigit then some (digitValue c) else none :=
  rfl

/-! ## Reading -/

theorem digitRun_eq (cs : List Char) :
    digitRun cs = ((cs.takeWhile Char.isDigit).map digitValue, cs.dropWhile Char.isDigit) := by
  induction cs with
  | nil => rfl
  | cons c rest ih =>
    rw [digitRun, digit?_eq]
    cases hc : c.isDigit with
    | true => simp [hc, ih]
    | false => simp [hc]

theorem valueOfDigits_map (cs : List Char) :
    valueOfDigits (cs.map digitValue) = Nat.ofDigitChars 10 cs 0 := by
  rw [valueOfDigits, List.foldl_map, Nat.ofDigitChars_eq_foldl]
  rfl

theorem natOfDigits?_digits (hne : cs ≠ []) (hdigits : ∀ c ∈ cs, c.isDigit = true) :
    natOfDigits? cs = some (Nat.ofDigitChars 10 cs 0) := by
  have hrun : digitRun cs = (cs.map digitValue, []) := by
    rw [digitRun_eq, List.takeWhile_eq_self_iff.mpr hdigits, List.dropWhile_eq_nil_iff.mpr hdigits]
  rw [natOfDigits?, hrun, ← valueOfDigits_map]
  cases cs with
  | nil => exact absurd rfl hne
  | cons c rest => rfl

theorem digits_of_natOfDigits? {n : Nat} (hread : natOfDigits? cs = some n) :
    cs ≠ [] ∧ ∀ c ∈ cs, c.isDigit = true := by
  constructor
  · rintro rfl
    cases hread
  · rw [← List.dropWhile_eq_nil_iff]
    rw [natOfDigits?, digitRun_eq] at hread
    split at hread
    · cases hread
    · next hrun => exact (Prod.mk.inj hrun).2
    · cases hread

/-- **A text of one or more digits is read as its decimal value, and no other is read.** -/
theorem natOfDigits?_eq_some {n : Nat} :
    natOfDigits? cs = some n ↔
      cs ≠ [] ∧ (∀ c ∈ cs, c.isDigit = true) ∧ Nat.ofDigitChars 10 cs 0 = n := by
  constructor
  · intro hread
    obtain ⟨hne, hdigits⟩ := digits_of_natOfDigits? hread
    rw [natOfDigits?_digits hne hdigits] at hread
    exact ⟨hne, hdigits, Option.some.inj hread⟩
  · rintro ⟨hne, hdigits, rfl⟩
    exact natOfDigits?_digits hne hdigits

/-! ## Reading into a word -/

/-- A word with one digit more, unless the product or the sum is too great for a word. -/
def appendDigit? (n : UInt32) (c : Char) : Option UInt32 :=
  if n ≤ 0xFFFFFFFF / 10 ∧ (digitValue c).toUInt32 ≤ 0xFFFFFFFF - 10 * n then
    some (10 * n + (digitValue c).toUInt32)
  else none

theorem le_ofDigitChars (cs : List Char) (n : Nat) : n ≤ Nat.ofDigitChars 10 cs n := by
  rw [Nat.ofDigitChars_eq_ofDigitChars_zero]
  exact Nat.le_add_right_of_le (Nat.le_mul_of_pos_left n (Nat.pow_pos (by decide)))

/-- Checks in words alone tell whether a product and a sum fit in a word. -/
theorem checks_iff (n d : UInt32) :
    n ≤ 0xFFFFFFFF / 10 ∧ d ≤ 0xFFFFFFFF - 10 * n ↔ 10 * n.toNat + d.toNat < UInt32.size := by
  have hd : d.toNat < 4294967296 := d.toNat_lt
  have hproduct : n ≤ 0xFFFFFFFF / 10 ↔ n.toNat ≤ 429496729 := UInt32.le_iff_toNat_le
  by_cases hn : n.toNat ≤ 429496729
  · have hten : (10 * n).toNat = 10 * n.toNat := by
      have hlt : 10 * n.toNat < 4294967296 := by omega
      rw [UInt32.toNat_mul]
      exact Nat.mod_eq_of_lt hlt
    have hle : 10 * n ≤ 0xFFFFFFFF := by
      rw [UInt32.le_iff_toNat_le, hten]
      show 10 * n.toNat ≤ 4294967295
      omega
    rw [and_iff_right (hproduct.mpr hn), UInt32.le_iff_toNat_le, UInt32.toNat_sub_of_le _ _ hle,
      hten]
    show d.toNat ≤ 4294967295 - 10 * n.toNat ↔ _ < 4294967296
    omega
  · refine iff_of_false (fun h => hn (hproduct.mp h.1)) ?_
    show ¬ _ < 4294967296
    omega

theorem toNat_digitValue (hc : c.isDigit = true) :
    (digitValue c).toUInt32.toNat = digitValue c :=
  UInt32.toNat_ofNat_of_lt' (Nat.lt_of_le_of_lt (digitValue_le hc) (by decide))

/-- A step that fits makes the word stand for one digit more; a step that does not has no word to
stand for it. -/
theorem appendDigit?_eq_some (hc : c.isDigit = true) {n w : UInt32} :
    appendDigit? n c = some w ↔ 10 * n.toNat + digitValue c = w.toNat := by
  have hchecks := checks_iff n (digitValue c).toUInt32
  have hsum : (10 * n + (digitValue c).toUInt32).toNat =
      (10 * n.toNat + digitValue c) % UInt32.size := by
    rw [UInt32.toNat_add, UInt32.toNat_mul, toNat_digitValue hc]
    exact Nat.mod_add_mod _ _ _
  rw [toNat_digitValue hc] at hchecks
  unfold appendDigit?
  split
  · next h =>
    rw [Option.some_inj, ← UInt32.toNat_inj, hsum, Nat.mod_eq_of_lt (hchecks.mp h)]
  · next h =>
    refine iff_of_false (by simp) fun heq => h (hchecks.mpr ?_)
    rw [heq]
    exact w.toNat_lt_size

theorem size_le_of_appendDigit?_eq_none (hc : c.isDigit = true) {n : UInt32}
    (hnone : appendDigit? n c = none) : UInt32.size ≤ 10 * n.toNat + digitValue c := by
  by_contra hlt
  have hfits := UInt32.toNat_ofNat_of_lt' (Nat.lt_of_not_le hlt)
  rw [(appendDigit?_eq_some hc).mpr hfits.symm] at hnone
  cases hnone

/-- **A run of digits is read into a word exactly if its value fits in the word.** -/
theorem foldlM_appendDigit?_eq_some (hdigits : ∀ c ∈ cs, c.isDigit = true) {n w : UInt32} :
    cs.foldlM appendDigit? n = some w ↔ Nat.ofDigitChars 10 cs n.toNat = w.toNat := by
  induction cs generalizing n with
  | nil => exact Option.some_inj.trans UInt32.toNat_inj.symm
  | cons c rest ih =>
    obtain ⟨hc, hrest⟩ := List.forall_mem_cons.mp hdigits
    rw [List.foldlM_cons, Nat.ofDigitChars_cons]
    change _ ↔ Nat.ofDigitChars 10 rest (10 * n.toNat + digitValue c) = _
    cases hstep : appendDigit? n c with
    | some next =>
      rw [(appendDigit?_eq_some hc).mp hstep]
      exact ih hrest
    | none =>
      -- The value is too great for a word here, and no digit that follows makes it smaller.
      have hbig := (size_le_of_appendDigit?_eq_none hc hstep).trans (le_ofDigitChars rest _)
      have hw := w.toNat_lt_size
      simp only [Option.bind_eq_bind, Option.bind_none, reduceCtorEq, false_iff]
      omega

end GatewayClient
