import GatewayClient.Number.Binary64

/-!
# Rounding does not go below one

One is a magnitude, so rounding a quotient of at least one gives a magnitude of at least one
(`oneLe_nearest`). Sums and products of such magnitudes are such magnitudes again, and so is the
whole number to which one is rounded.
-/

namespace GatewayClient

namespace Magnitude

/-- A magnitude of at least one. -/
def OneLe (x : Magnitude) : Prop := x.den ≤ x.num

theorem oneLe_one : one.OneLe := Nat.le_refl _

theorem den_pos (x : Magnitude) : 0 < x.den := Nat.two_pow_pos _

theorem div_le_divNear (tie : Tie) (num den : Nat) : num / den ≤ divNear tie num den := by
  unfold divNear
  dsimp only
  split
  · exact Nat.le_refl _
  · split
    · exact Nat.le_succ _
    · cases tie with
      | even => exact Nat.le_add_right _ _
      | up => exact Nat.le_succ _

/-- The exponent leaves a quotient of at least one its whole part: where it is not negative the
logarithms of numerator and denominator lie 52 apart or more. -/
theorem mul_pow_exponentOf_le {num den : Nat} (hden : 0 < den) (hle : den ≤ num) :
    den * Nat.pow 2 (exponentOf num den).toNat ≤ num := by
  rw [Nat.pow_eq]
  have hnum : num ≠ 0 := by omega
  have hbound : (exponentOf num den).toNat ≤ ((num.log2 : Int) - den.log2 - 52).toNat := by
    unfold exponentOf
    dsimp only
    split <;> omega
  rcases Nat.eq_zero_or_pos (exponentOf num den).toNat with hzero | hpos
  · rw [hzero, Nat.pow_zero, Nat.mul_one]
    exact hle
  · have hexponent : den.log2 + 1 + (exponentOf num den).toNat ≤ num.log2 := by omega
    calc den * 2 ^ (exponentOf num den).toNat
        ≤ 2 ^ (den.log2 + 1) * 2 ^ (exponentOf num den).toNat :=
          Nat.mul_le_mul_right _ (Nat.le_of_lt Nat.lt_log2_self)
      _ = 2 ^ (den.log2 + 1 + (exponentOf num den).toNat) := (Nat.pow_add ..).symm
      _ ≤ 2 ^ num.log2 := Nat.pow_le_pow_right (by omega) hexponent
      _ ≤ num := Nat.log2_self_le hnum

/-- The mantissa of a quotient of at least one, before the carry. -/
theorem pow_le_mantissa {num den : Nat} (hden : 0 < den) (hle : den ≤ num) :
    Nat.pow 2 (-exponentOf num den).toNat ≤
      divNear .even (num * Nat.pow 2 (-exponentOf num den).toNat)
        (den * Nat.pow 2 (exponentOf num den).toNat) := by
  have hpos : 0 < den * Nat.pow 2 (exponentOf num den).toNat :=
    Nat.mul_pos hden (Nat.two_pow_pos _)
  refine Nat.le_trans ?_ (div_le_divNear ..)
  rw [Nat.le_div_iff_mul_le hpos, Nat.mul_comm]
  exact Nat.mul_le_mul_right _ (mul_pow_exponentOf_le hden hle)

theorem oneLe_mk {mantissa : Nat} {exponent : Int} (hle : Nat.pow 2 (-exponent).toNat ≤ mantissa) :
    OneLe ⟨mantissa, exponent⟩ :=
  Nat.le_trans hle (Nat.le_mul_of_pos_right _ (Nat.two_pow_pos _))

theorem oneLe_nearest {num den : Nat} {x : Magnitude} (hden : 0 < den) (hle : den ≤ num)
    (hx : nearest num den = some x) : x.OneLe := by
  have hmantissa := pow_le_mantissa hden hle
  unfold nearest at hx
  dsimp only at hx
  rw [if_neg (by omega)] at hx
  generalize divNear .even (num * Nat.pow 2 (-exponentOf num den).toNat)
    (den * Nat.pow 2 (exponentOf num den).toNat) = m at hmantissa hx
  generalize exponentOf num den = e at hmantissa hx
  split at hx
  · next hcarry =>
    rw [hcarry, Nat.pow_eq, Nat.pow_eq, Nat.pow_le_pow_iff_right (by omega)] at hmantissa
    split at hx <;> cases hx
    refine oneLe_mk ?_
    rw [Nat.pow_eq, Nat.pow_eq]
    exact Nat.pow_le_pow_right (by omega) (by omega)
  · split at hx <;> cases hx
    exact oneLe_mk hmantissa

theorem oneLe_add {x y z : Magnitude} (hx : x.OneLe) (hz : x.add y = some z) : z.OneLe := by
  refine oneLe_nearest (Nat.mul_pos x.den_pos y.den_pos) ?_ hz
  exact Nat.le_trans (Nat.mul_le_mul_right _ hx) (Nat.le_add_right _ _)

theorem oneLe_mul {x y z : Magnitude} (hx : x.OneLe) (hy : y.OneLe) (hz : x.mul y = some z) :
    z.OneLe :=
  oneLe_nearest (Nat.mul_pos x.den_pos y.den_pos) (Nat.mul_le_mul hx hy) hz

theorem one_le_round {x : Magnitude} (hx : x.OneLe) : 1 ≤ x.round := by
  refine Nat.le_trans ?_ (div_le_divNear ..)
  exact (Nat.le_div_iff_mul_le x.den_pos).mpr (by rw [Nat.one_mul]; exact hx)

end Magnitude

/-- A number has a nearest one between zero and one. -/
theorem Binary64.exists_clampUnit {jitter : Binary64} (hnumber : jitter ≠ .nan) :
    ∃ j, jitter.clampUnit = some j := by
  cases jitter with
  | nan => exact absurd rfl hnumber
  | infinite negative => cases negative <;> exact ⟨_, rfl⟩
  | finite negative size => cases negative <;> exact ⟨_, rfl⟩

end GatewayClient
