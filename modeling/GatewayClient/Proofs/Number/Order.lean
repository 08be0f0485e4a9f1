import GatewayClient.Proofs.Number.Monotone

/-!
# The order of doubles

Doubles are ordered as the numbers they stand for, with the infinities below and above all of them.
A NaN stands for no number and is ordered with nothing (`Binary64.NoGreater`). The nearest value
between zero and one keeps the order (`Binary64.clampUnit_mono`), because on numbers it is the
number itself cut off at zero and at one.
-/

namespace GatewayClient

namespace Magnitude

theorem value_zero : zero.value = 0 := zero_mul _

theorem value_one : one.value = 1 := by
  rw [value_eq]
  exact div_self (by exact_mod_cast one.den_ne_zero)

end Magnitude

namespace Binary64

/-- The number that a finite double stands for. -/
def number (negative : Bool) (size : Magnitude) : ℚ :=
  if negative then -size.value else size.value

/-- The first is no greater than the second. Each of the two zeros is no greater than the other. -/
def NoGreater : Binary64 → Binary64 → Prop
  | .nan, _ => False
  | _, .nan => False
  | .infinite true, _ => True
  | _, .infinite false => True
  | .finite s x, .finite t y => number s x ≤ number t y
  | _, _ => False

variable {x y : Binary64}

/-- A number between zero and one is its own nearest, and the others are cut off. -/
theorem clampUnit_finite (negative : Bool) (size : Magnitude) :
    ∃ j, clampUnit (.finite negative size) = some j
      ∧ j.value = max 0 (min (number negative size) 1) := by
  have hsize := size.value_nonneg
  cases negative with
  | true =>
    refine ⟨.zero, rfl, ?_⟩
    have hneg : min (number true size) 1 ≤ 0 := (min_le_left _ _).trans (neg_nonpos.mpr hsize)
    rw [Magnitude.value_zero, max_eq_left hneg]
  | false =>
    refine ⟨if size.num ≤ size.den then size else .one, rfl, ?_⟩
    have hpos : 0 ≤ min (number false size) 1 := le_min hsize zero_le_one
    have hden : (0 : ℚ) < size.den := by exact_mod_cast size.den_pos
    have hone : size.num ≤ size.den ↔ size.value ≤ 1 := by
      rw [Magnitude.value_eq, div_le_one hden, Nat.cast_le]
    have hmin : (if size.num ≤ size.den then size else Magnitude.one).value =
        min (number false size) 1 := by
      split
      · next hle => exact (min_eq_left (hone.mp hle)).symm
      · next hgreat =>
        rw [Magnitude.value_one]
        exact (min_eq_right (le_of_not_ge fun hle => hgreat (hone.mpr hle))).symm
    rw [hmin, max_eq_right hpos]

theorem value_clampUnit_le_one {j : Magnitude} (hj : x.clampUnit = some j) : j.value ≤ 1 := by
  cases x with
  | nan => cases hj
  | infinite negative =>
    cases negative <;> cases hj
    · exact Magnitude.value_one.le
    · exact Magnitude.value_zero.trans_le zero_le_one
  | finite negative size =>
    obtain ⟨k, hk, hvalue⟩ := clampUnit_finite negative size
    obtain rfl := Option.some.inj (hk.symm.trans hj)
    rw [hvalue]
    exact max_le zero_le_one (min_le_right _ _)

/-- **The nearest value between zero and one is monotone.** -/
theorem clampUnit_mono (h : x.NoGreater y) :
    ∃ j k, x.clampUnit = some j ∧ y.clampUnit = some k ∧ j.value ≤ k.value := by
  cases x with
  | nan => cases y <;> cases h
  | infinite negative =>
    cases negative with
    | true =>
      obtain ⟨k, hk⟩ := exists_clampUnit (show y ≠ .nan by rintro rfl; exact h)
      exact ⟨.zero, k, rfl, hk, Magnitude.value_zero.trans_le k.value_nonneg⟩
    | false =>
      cases y with
      | nan => cases h
      | finite => cases h
      | infinite negative =>
        cases negative with
        | true => cases h
        | false => exact ⟨.one, .one, rfl, rfl, le_refl _⟩
  | finite negative size =>
    obtain ⟨j, hj, hvalue⟩ := clampUnit_finite negative size
    cases y with
    | nan => cases h
    | infinite negative' =>
      cases negative' with
      | true => cases h
      | false =>
        exact ⟨j, .one, hj, rfl, (value_clampUnit_le_one hj).trans_eq Magnitude.value_one.symm⟩
    | finite negative' size' =>
      obtain ⟨k, hk, hvalue'⟩ := clampUnit_finite negative' size'
      refine ⟨j, k, hj, hk, ?_⟩
      rw [hvalue, hvalue']
      exact max_le_max_left 0 (min_le_min_right 1 h)

end Binary64

end GatewayClient
