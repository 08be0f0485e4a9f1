import Mathlib.Algebra.Order.Field.Power
import Mathlib.Data.Rat.Cast.Order
import Mathlib.Tactic.FieldSimp
import Mathlib.Tactic.Linarith
import Mathlib.Tactic.Positivity
import Mathlib.Tactic.Ring
import GatewayClient.Proofs.Number.Rounding

/-!
# Rounding is monotone

A rounded quotient is a mantissa times a power of two (`roundedTo`). Of a greater quotient neither
the exponent is less (`exponentOf_mono`) nor, with the same exponent, the mantissa; and a mantissa
of 53 bits over a greater exponent makes up for any mantissa over a smaller one. So rounding is
monotone (`roundedTo_mono`), above all magnitudes too, and a mantissa of up to 53 bits times a power
of two is not rounded at all (`nearest_exact`).
-/

namespace GatewayClient

namespace Magnitude

/-- The number that a magnitude stands for. -/
def value (x : Magnitude) : ℚ := x.mantissa * 2 ^ x.exponent

theorem two_zpow_eq (e : ℤ) : (2 : ℚ) ^ e = 2 ^ e.toNat / 2 ^ (-e).toNat := by
  have hsplit : e = (e.toNat : ℤ) - ((-e).toNat : ℤ) := by omega
  conv_lhs => rw [hsplit]
  rw [zpow_sub₀ two_ne_zero, zpow_natCast, zpow_natCast]

theorem value_eq (x : Magnitude) : x.value = (x.num : ℚ) / x.den := by
  rw [value, two_zpow_eq, num, den, Nat.pow_eq, Nat.pow_eq]
  push_cast
  ring

theorem value_nonneg (x : Magnitude) : 0 ≤ x.value := by
  unfold value
  positivity

theorem oneLe_iff (x : Magnitude) : x.OneLe ↔ 1 ≤ x.value := by
  have hden : (0 : ℚ) < x.den := by exact_mod_cast x.den_pos
  rw [value_eq, le_div_iff₀ hden, one_mul, OneLe, Nat.cast_le]

/-! ## Whole numbers -/

section

variable {tie : Tie} {a b c d : ℕ}

/-- What rounding adds to the whole part of a quotient, told by twice the remainder. -/
def carry (tie : Tie) (whole twice den : ℕ) : ℕ :=
  if twice < den then 0 else if den < twice then 1
  else
    match tie with
    | .even => whole % 2
    | .up => 1

theorem divNear_eq (tie : Tie) (a b : ℕ) :
    divNear tie a b = a / b + carry tie (a / b) (2 * (a % b)) b := by
  unfold divNear carry
  dsimp only
  split
  · rfl
  · split
    · rfl
    · cases tie with
      | even => rfl
      | up => rfl

theorem carry_le_one (tie : Tie) (whole twice den : ℕ) : carry tie whole twice den ≤ 1 := by
  unfold carry
  split
  · exact Nat.zero_le 1
  · split
    · exact Nat.le_refl 1
    · cases tie with
      | even => exact Nat.le_of_lt_succ (Nat.mod_lt _ Nat.two_pos)
      | up => exact Nat.le_refl 1

theorem carry_mono (tie : Tie) (whole : ℕ) {twice twice' : ℕ} (hle : b ≤ twice → d ≤ twice')
    (hlt : b < twice → d < twice') : carry tie whole twice b ≤ carry tie whole twice' d := by
  by_cases hless : twice < b
  · refine le_of_eq_of_le ?_ (Nat.zero_le _)
    exact if_pos hless
  · have hless' : ¬twice' < d := Nat.not_lt.mpr (hle (Nat.not_lt.mp hless))
    by_cases hmore' : d < twice'
    · refine (carry_le_one ..).trans (le_of_eq ?_)
      unfold carry
      rw [if_neg hless', if_pos hmore']
    · have hmore : ¬b < twice := fun h => hmore' (hlt h)
      unfold carry
      rw [if_neg hless, if_neg hless', if_neg hmore, if_neg hmore']

/-- A quotient that is no greater is rounded to a number that is no greater. Where the whole parts
are the same the remainders decide. -/
theorem divNear_mono (tie : Tie) (hb : 0 < b) (hd : 0 < d) (h : a * d ≤ c * b) :
    divNear tie a b ≤ divNear tie c d := by
  have ha := Nat.div_add_mod a b
  have hc := Nat.div_add_mod c d
  have hwhole : a / b ≤ c / d := by
    rw [Nat.le_div_iff_mul_le hd]
    have hle : a / b * d * b ≤ c * b := by
      calc a / b * d * b = a / b * b * d := by ring
        _ ≤ a * d := Nat.mul_le_mul_right _ (Nat.div_mul_le_self a b)
        _ ≤ c * b := h
    exact Nat.le_of_mul_le_mul_right hle hb
  rcases Nat.lt_or_eq_of_le hwhole with hlt | heq
  · calc divNear tie a b = a / b + carry tie (a / b) (2 * (a % b)) b := divNear_eq tie a b
      _ ≤ a / b + 1 := Nat.add_le_add_left (carry_le_one ..) _
      _ ≤ c / d := hlt
      _ ≤ divNear tie c d := div_le_divNear ..
  · have hrest : a % b * d ≤ c % d * b := by
      have hsame : a / b * b * d = c / d * d * b := by rw [heq]; ring
      have hsplit : (b * (a / b) + a % b) * d ≤ (d * (c / d) + c % d) * b := by rw [ha, hc]; exact h
      nlinarith
    rw [divNear_eq, divNear_eq, heq]
    refine Nat.add_le_add_left (carry_mono tie _ (fun hle => ?_) fun hlt => ?_) _
    · have hmul : d * b ≤ 2 * (c % d) * b := by nlinarith
      exact Nat.le_of_mul_le_mul_right hmul hb
    · have hmul : d * b < 2 * (c % d) * b := by nlinarith
      exact Nat.lt_of_mul_lt_mul_right hmul

theorem divNear_mul_self (tie : Tie) (n : ℕ) (hb : 0 < b) : divNear tie (n * b) b = n := by
  unfold divNear
  rw [Nat.mul_div_cancel n hb, Nat.mul_mod_left]
  exact if_pos hb

theorem divNear_le (tie : Tie) (hb : 0 < b) {n : ℕ} (h : a ≤ n * b) : divNear tie a b ≤ n := by
  have hmono := divNear_mono tie hb hb (Nat.mul_le_mul_right b h)
  rwa [divNear_mul_self tie n hb] at hmono

theorem le_divNear (tie : Tie) (hb : 0 < b) {n : ℕ} (h : n * b ≤ a) : n ≤ divNear tie a b := by
  have hmono := divNear_mono tie hb hb (Nat.mul_le_mul_right b h)
  rwa [divNear_mul_self tie n hb] at hmono

end

/-! ## Exponents -/

section

variable {num den num' den' : ℕ}

/-- Two to the difference of the logarithms of two numbers tells their quotient up to a factor of
two either way. -/
theorem log2_bounds (hnum : num ≠ 0) (hden : den ≠ 0) :
    (2 : ℚ) ^ ((num.log2 : ℤ) - den.log2 - 1) < num / den
      ∧ (num / den : ℚ) < 2 ^ ((num.log2 : ℤ) - den.log2 + 1) := by
  have hd : (0 : ℚ) < den := by exact_mod_cast Nat.pos_of_ne_zero hden
  have hn₁ : ((2 : ℚ) ^ (num.log2 : ℤ)) ≤ num := by
    rw [zpow_natCast]; exact_mod_cast Nat.log2_self_le hnum
  have hn₂ : (num : ℚ) < 2 ^ ((num.log2 : ℤ) + 1) := by
    have h := @Nat.lt_log2_self num
    rw [← Nat.cast_succ, zpow_natCast]; exact_mod_cast h
  have hd₁ : ((2 : ℚ) ^ (den.log2 : ℤ)) ≤ den := by
    rw [zpow_natCast]; exact_mod_cast Nat.log2_self_le hden
  have hd₂ : (den : ℚ) < 2 ^ ((den.log2 : ℤ) + 1) := by
    have h := @Nat.lt_log2_self den
    rw [← Nat.cast_succ, zpow_natCast]; exact_mod_cast h
  constructor
  · rw [lt_div_iff₀ hd]
    calc (2 : ℚ) ^ ((num.log2 : ℤ) - den.log2 - 1) * den
        < 2 ^ ((num.log2 : ℤ) - den.log2 - 1) * 2 ^ ((den.log2 : ℤ) + 1) := by gcongr
      _ = 2 ^ (num.log2 : ℤ) := by rw [← zpow_add₀ two_ne_zero]; ring_nf
      _ ≤ num := hn₁
  · rw [div_lt_iff₀ hd]
    calc (num : ℚ) < 2 ^ ((num.log2 : ℤ) + 1) := hn₂
      _ = 2 ^ ((num.log2 : ℤ) - den.log2 + 1) * 2 ^ (den.log2 : ℤ) := by
        rw [← zpow_add₀ two_ne_zero]; ring_nf
      _ ≤ 2 ^ ((num.log2 : ℤ) - den.log2 + 1) * den := by gcongr

/-- A quotient over a power of two, in whole numbers. -/
theorem scaled_eq (e : ℤ) :
    ((num * Nat.pow 2 (-e).toNat : ℕ) : ℚ) / (den * Nat.pow 2 e.toNat : ℕ) = num / den / 2 ^ e := by
  rw [two_zpow_eq, Nat.pow_eq, Nat.pow_eq]
  push_cast
  field_simp

theorem scaled_den_pos (hden : den ≠ 0) (e : ℤ) : 0 < den * Nat.pow 2 e.toNat :=
  Nat.mul_pos (Nat.pos_of_ne_zero hden) (Nat.two_pow_pos _)

theorem scaled_le_iff (hden : den ≠ 0) (e : ℤ) (n : ℕ) :
    num * Nat.pow 2 (-e).toNat ≤ n * (den * Nat.pow 2 e.toNat)
      ↔ (num / den : ℚ) ≤ n * 2 ^ e := by
  have hpos : (0 : ℚ) < (den * Nat.pow 2 e.toNat : ℕ) := by exact_mod_cast scaled_den_pos hden e
  have htwo : (0 : ℚ) < 2 ^ e := by positivity
  rw [← div_le_iff₀ htwo, ← scaled_eq, div_le_iff₀ hpos]
  norm_cast

theorem le_scaled_iff (hden : den ≠ 0) (e : ℤ) (n : ℕ) :
    n * (den * Nat.pow 2 e.toNat) ≤ num * Nat.pow 2 (-e).toNat
      ↔ n * 2 ^ e ≤ (num / den : ℚ) := by
  have hpos : (0 : ℚ) < (den * Nat.pow 2 e.toNat : ℕ) := by exact_mod_cast scaled_den_pos hden e
  have htwo : (0 : ℚ) < 2 ^ e := by positivity
  rw [← le_div_iff₀ htwo, ← scaled_eq, le_div_iff₀ hpos]
  norm_cast

/-- The test by which the exponent is chosen. -/
theorem fits_iff (hden : den ≠ 0) (low : ℤ) :
    num * Nat.pow 2 (-low).toNat < Nat.pow 2 53 * (den * Nat.pow 2 low.toNat)
      ↔ (num / den : ℚ) < 2 ^ 53 * 2 ^ low := by
  rw [← not_iff_not, not_lt, not_lt, le_scaled_iff hden low (Nat.pow 2 53), Nat.pow_eq]
  norm_num

theorem lt_exponentOf (hnum : num ≠ 0) (hden : den ≠ 0) :
    (num / den : ℚ) < 2 ^ 53 * 2 ^ exponentOf num den := by
  have hlow := (log2_bounds hnum hden).2
  unfold exponentOf
  dsimp only
  split
  · next hfits =>
    refine lt_of_lt_of_le ((fits_iff hden _).mp hfits) ?_
    gcongr
    · norm_num
    · exact le_max_right _ _
  · refine lt_of_lt_of_le hlow ?_
    have hsplit : (2 : ℚ) ^ ((num.log2 : ℤ) - den.log2 + 1) =
        2 ^ 53 * 2 ^ ((num.log2 : ℤ) - den.log2 - 53 + 1) := by
      rw [← zpow_natCast, ← zpow_add₀ two_ne_zero]
      congr 1
      push_cast
      ring
    rw [hsplit]
    gcongr
    · norm_num
    · exact le_max_right _ _

/-- Only the least exponent may leave a mantissa below 53 bits. -/
theorem exponentOf_le (hnum : num ≠ 0) (hden : den ≠ 0) (he : exponentOf num den ≠ -1074) :
    (2 : ℚ) ^ 52 * 2 ^ exponentOf num den ≤ num / den := by
  have hhigh := (log2_bounds hnum hden).1
  unfold exponentOf at he ⊢
  dsimp only at he ⊢
  split at he
  · next hfits =>
    rw [if_pos hfits]
    rw [max_eq_right (by omega)]
    refine le_trans (le_of_eq ?_) hhigh.le
    rw [← zpow_natCast, ← zpow_add₀ two_ne_zero]
    congr 1
    push_cast
    ring
  · next hfits =>
    rw [if_neg hfits, max_eq_right (by omega)]
    rw [fits_iff hden, not_lt] at hfits
    refine le_trans (le_of_eq ?_) hfits
    rw [zpow_add_one₀ two_ne_zero]
    ring

theorem neg_le_exponentOf (num den : ℕ) : -1074 ≤ exponentOf num den := by
  unfold exponentOf
  exact le_max_left _ _

theorem exponentOf_mono (hnum : num ≠ 0) (hden : den ≠ 0) (hnum' : num' ≠ 0) (hden' : den' ≠ 0)
    (h : (num / den : ℚ) ≤ num' / den') : exponentOf num den ≤ exponentOf num' den' := by
  by_contra hlt
  have hleast := neg_le_exponentOf num' den'
  have hlow := exponentOf_le hnum hden (by omega)
  have hhigh := lt_exponentOf hnum' hden'
  have hstep : (2 : ℚ) ^ 53 * 2 ^ exponentOf num' den' ≤ 2 ^ 52 * 2 ^ exponentOf num den := by
    calc (2 : ℚ) ^ 53 * 2 ^ exponentOf num' den'
        = 2 ^ 52 * 2 ^ (exponentOf num' den' + 1) := by rw [zpow_add_one₀ two_ne_zero]; ring
      _ ≤ 2 ^ 52 * 2 ^ exponentOf num den := by
        gcongr
        · norm_num
        · omega
  linarith

/-! ## Rounding -/

/-- The mantissa of a quotient, of up to 53 bits or the next power of two. -/
def mantissaOf (num den : ℕ) : ℕ :=
  divNear .even (num * Nat.pow 2 (-exponentOf num den).toNat)
    (den * Nat.pow 2 (exponentOf num den).toNat)

/-- What a quotient is rounded to, if there is no limit above. -/
def roundedTo (num den : ℕ) : ℚ := mantissaOf num den * 2 ^ exponentOf num den

theorem mantissaOf_le (hnum : num ≠ 0) (hden : den ≠ 0) : mantissaOf num den ≤ 2 ^ 53 := by
  refine divNear_le .even (scaled_den_pos hden _) ((scaled_le_iff hden _ _).mpr ?_)
  push_cast
  exact (lt_exponentOf hnum hden).le

theorem le_mantissaOf (hnum : num ≠ 0) (hden : den ≠ 0) (he : exponentOf num den ≠ -1074) :
    2 ^ 52 ≤ mantissaOf num den := by
  refine le_divNear .even (scaled_den_pos hden _) ((le_scaled_iff hden _ _).mpr ?_)
  push_cast
  exact exponentOf_le hnum hden he

theorem mantissaOf_mono (hden : den ≠ 0) (hden' : den' ≠ 0)
    (h : (num / den : ℚ) ≤ num' / den') (he : exponentOf num den = exponentOf num' den') :
    mantissaOf num den ≤ mantissaOf num' den' := by
  unfold mantissaOf
  rw [he]
  refine divNear_mono .even (scaled_den_pos hden _) (scaled_den_pos hden' _) ?_
  have hpos : (0 : ℚ) < (den * Nat.pow 2 (exponentOf num' den').toNat : ℕ) := by
    exact_mod_cast scaled_den_pos hden _
  have hpos' : (0 : ℚ) < (den' * Nat.pow 2 (exponentOf num' den').toNat : ℕ) := by
    exact_mod_cast scaled_den_pos hden' _
  have hscaled := div_le_div_of_nonneg_right h
    (zpow_nonneg zero_le_two (exponentOf num' den') : (0 : ℚ) ≤ _)
  rw [← scaled_eq, ← scaled_eq, div_le_div_iff₀ hpos hpos'] at hscaled
  exact_mod_cast hscaled

theorem roundedTo_zero (hden : den ≠ 0) : roundedTo 0 den = 0 := by
  have hzero : mantissaOf 0 den = 0 :=
    Nat.le_zero.mp (divNear_le .even (scaled_den_pos hden _) (by rw [Nat.zero_mul, Nat.zero_mul]))
  rw [roundedTo, hzero, Nat.cast_zero, zero_mul]

theorem roundedTo_nonneg (num den : ℕ) : 0 ≤ roundedTo num den := by
  unfold roundedTo
  positivity

theorem roundedTo_mono_of_ne_zero (hnum : num ≠ 0) (hden : den ≠ 0) (hnum' : num' ≠ 0)
    (hden' : den' ≠ 0) (h : (num / den : ℚ) ≤ num' / den') :
    roundedTo num den ≤ roundedTo num' den' := by
  unfold roundedTo
  rcases (exponentOf_mono hnum hden hnum' hden' h).lt_or_eq with hlt | heq
  · have hleast := neg_le_exponentOf num den
    calc (mantissaOf num den : ℚ) * 2 ^ exponentOf num den
        ≤ 2 ^ 53 * 2 ^ exponentOf num den := by
          gcongr
          exact_mod_cast mantissaOf_le hnum hden
      _ = 2 ^ 52 * 2 ^ (exponentOf num den + 1) := by rw [zpow_add_one₀ two_ne_zero]; ring
      _ ≤ 2 ^ 52 * 2 ^ exponentOf num' den' := by
          gcongr
          · norm_num
          · omega
      _ ≤ mantissaOf num' den' * 2 ^ exponentOf num' den' := by
          gcongr
          exact_mod_cast le_mantissaOf hnum' hden' (by omega)
  · rw [heq]
    gcongr
    exact mantissaOf_mono hden hden' h heq

/-- **Rounding is monotone.** -/
theorem roundedTo_mono (hden : den ≠ 0) (hden' : den' ≠ 0) (h : (num / den : ℚ) ≤ num' / den') :
    roundedTo num den ≤ roundedTo num' den' := by
  rcases eq_or_ne num 0 with rfl | hnum
  · rw [roundedTo_zero hden]
    exact roundedTo_nonneg num' den'
  · have hpos : (0 : ℚ) < num / den := by
      have := Nat.pos_of_ne_zero hnum
      have := Nat.pos_of_ne_zero hden
      positivity
    have hnum' : num' ≠ 0 := by
      rintro rfl
      rw [Nat.cast_zero, zero_div] at h
      exact absurd h (not_le.mpr hpos)
    exact roundedTo_mono_of_ne_zero hnum hden hnum' hden' h

/-- The nearest magnitude, with the carry of a mantissa that has become too long. -/
theorem nearest_eq (hnum : num ≠ 0) (hden : den ≠ 0) :
    ∃ x : Magnitude, x.value = roundedTo num den
      ∧ (x.exponent ≤ 971 ↔ roundedTo num den < 2 ^ 53 * 2 ^ (971 : ℤ))
      ∧ nearest num den = if x.exponent ≤ 971 then some x else none := by
  have hlong := mantissaOf_le hnum hden
  -- A magnitude with the mantissa in place lies below the limit exactly if its exponent does.
  have hlimit : ∀ x : Magnitude, x.value = roundedTo num den → x.mantissa < 2 ^ 53 →
      (x.exponent ≠ -1074 → 2 ^ 52 ≤ x.mantissa) →
      (x.exponent ≤ 971 ↔ roundedTo num den < 2 ^ 53 * 2 ^ (971 : ℤ)) := by
    intro x hvalue hshort hfull
    have hpower : (0 : ℚ) < 2 ^ x.exponent := by positivity
    rw [← hvalue, value]
    constructor
    · intro hle
      calc (x.mantissa : ℚ) * 2 ^ x.exponent < 2 ^ 53 * 2 ^ x.exponent := by
            gcongr
            exact_mod_cast hshort
        _ ≤ 2 ^ 53 * 2 ^ (971 : ℤ) := by
            gcongr
            norm_num
    · intro hlt
      by_contra hgreat
      have hmantissa : (2 ^ 52 : ℚ) ≤ x.mantissa := by exact_mod_cast hfull (by omega)
      have hle : (2 : ℚ) ^ 53 * 2 ^ (971 : ℤ) ≤ x.mantissa * 2 ^ x.exponent := by
        calc (2 : ℚ) ^ 53 * 2 ^ (971 : ℤ) = 2 ^ 52 * 2 ^ ((971 : ℤ) + 1) := by
              rw [zpow_add_one₀ two_ne_zero]
              ring
          _ ≤ 2 ^ 52 * 2 ^ x.exponent := by
              gcongr
              · norm_num
              · omega
          _ ≤ x.mantissa * 2 ^ x.exponent := by gcongr
      exact absurd hlt (not_lt.mpr hle)
  by_cases hcarry : mantissaOf num den = 2 ^ 53
  · have hvalue : value ⟨2 ^ 52, exponentOf num den + 1⟩ = roundedTo num den := by
      rw [value, roundedTo, hcarry]
      push_cast
      rw [zpow_add_one₀ two_ne_zero]
      ring
    refine ⟨_, hvalue, hlimit _ hvalue (by norm_num) fun _ => le_refl _, ?_⟩
    unfold nearest
    dsimp only
    rw [if_neg hnum]
    exact congrArg (fun y : Magnitude => if y.exponent ≤ 971 then some y else none) (if_pos hcarry)
  · have hvalue : value ⟨mantissaOf num den, exponentOf num den⟩ = roundedTo num den := rfl
    refine ⟨_, hvalue, hlimit _ hvalue (lt_of_le_of_ne hlong hcarry) (le_mantissaOf hnum hden), ?_⟩
    unfold nearest
    dsimp only
    rw [if_neg hnum]
    exact congrArg (fun y : Magnitude => if y.exponent ≤ 971 then some y else none) (if_neg hcarry)

theorem value_of_nearest (hden : den ≠ 0) {x : Magnitude} (hx : nearest num den = some x) :
    x.value = roundedTo num den := by
  rcases eq_or_ne num 0 with rfl | hnum
  · cases hx
    rw [roundedTo_zero hden, value]
    exact zero_mul _
  · obtain ⟨y, hy, -, hnearest⟩ := nearest_eq hnum hden
    rw [hnearest] at hx
    split at hx
    · cases hx
      exact hy
    · cases hx

theorem nearest_eq_none (hden : den ≠ 0) :
    nearest num den = none ↔ 2 ^ 53 * 2 ^ (971 : ℤ) ≤ roundedTo num den := by
  rcases eq_or_ne num 0 with rfl | hnum
  · rw [roundedTo_zero hden]
    constructor
    · intro hnone
      cases hnone
    · intro hle
      exact absurd hle (not_le.mpr (by positivity))
  · obtain ⟨y, -, hlimit, hnearest⟩ := nearest_eq hnum hden
    rw [hnearest]
    by_cases hle : y.exponent ≤ 971
    · rw [if_pos hle]
      exact ⟨fun hnone => absurd hnone (Option.some_ne_none y),
        fun hgreat => absurd (hlimit.mp hle) (not_lt.mpr hgreat)⟩
    · rw [if_neg hle]
      exact ⟨fun _ => not_lt.mp fun hlt => hle (hlimit.mpr hlt), fun _ => rfl⟩

end

/-! ## Orders of rounded values -/

/-- The first is a value no greater than the second; none lies above all magnitudes. -/
def NoGreater : Option Magnitude → Option Magnitude → Prop
  | some x, some y => x.value ≤ y.value
  | none, some _ => False
  | _, none => True

theorem nearest_mono {num den num' den' : ℕ} (hden : den ≠ 0) (hden' : den' ≠ 0)
    (h : (num / den : ℚ) ≤ num' / den') : NoGreater (nearest num den) (nearest num' den') := by
  have hmono := roundedTo_mono hden hden' h
  cases hx : nearest num den with
  | none =>
    have hnone : nearest num' den' = none :=
      (nearest_eq_none hden').mpr (((nearest_eq_none hden).mp hx).trans hmono)
    rw [hnone]
    trivial
  | some x =>
    cases hy : nearest num' den' with
    | none => trivial
    | some y =>
      change x.value ≤ y.value
      rwa [value_of_nearest hden hx, value_of_nearest hden' hy]

variable {x y x' y' : Magnitude}

theorem den_ne_zero (x : Magnitude) : x.den ≠ 0 := Nat.ne_of_gt x.den_pos

theorem mul_mono (hx : x.value ≤ x'.value) (hy : y.value ≤ y'.value) :
    NoGreater (x.mul y) (x'.mul y') := by
  refine nearest_mono (Nat.mul_ne_zero x.den_ne_zero y.den_ne_zero)
    (Nat.mul_ne_zero x'.den_ne_zero y'.den_ne_zero) ?_
  push_cast
  rw [mul_div_mul_comm, mul_div_mul_comm, ← value_eq, ← value_eq, ← value_eq, ← value_eq]
  exact mul_le_mul hx hy y.value_nonneg x'.value_nonneg

theorem add_mono (hx : x.value ≤ x'.value) (hy : y.value ≤ y'.value) :
    NoGreater (x.add y) (x'.add y') := by
  have hsum : ∀ a b : Magnitude,
      ((a.num * b.den + b.num * a.den : ℕ) / (a.den * b.den : ℕ) : ℚ) = a.value + b.value := by
    intro a b
    have ha : (a.den : ℚ) ≠ 0 := by exact_mod_cast a.den_ne_zero
    have hb : (b.den : ℚ) ≠ 0 := by exact_mod_cast b.den_ne_zero
    rw [value_eq, value_eq, div_add_div _ _ ha hb]
    push_cast
    ring
  refine nearest_mono (Nat.mul_ne_zero x.den_ne_zero y.den_ne_zero)
    (Nat.mul_ne_zero x'.den_ne_zero y'.den_ne_zero) ?_
  rw [hsum, hsum]
  exact add_le_add hx hy

theorem round_mono (h : x.value ≤ y.value) : x.round ≤ y.round := by
  have hx : (0 : ℚ) < x.den := by exact_mod_cast x.den_pos
  have hy : (0 : ℚ) < y.den := by exact_mod_cast y.den_pos
  rw [value_eq, value_eq, div_le_div_iff₀ hx hy] at h
  exact divNear_mono .up x.den_pos y.den_pos (by exact_mod_cast h)

theorem round_of_value {n : ℕ} (h : x.value = n) : x.round = n := by
  have hden : (x.den : ℚ) ≠ 0 := by exact_mod_cast x.den_ne_zero
  rw [value_eq, div_eq_iff hden] at h
  have hnum : x.num = n * x.den := by exact_mod_cast h
  rw [round, hnum]
  exact divNear_mul_self .up n x.den_pos

/-- A mantissa of up to 53 bits times a power of two is not rounded. The exponent that is chosen
leaves no remainder: it is no greater than that of the power, or by one for the next power of two. -/
theorem roundedTo_exact {num den m : ℕ} {e : ℤ} (hden : den ≠ 0) (hm : m ≤ 2 ^ 53)
    (he : -1074 ≤ e) (h : (num / den : ℚ) = m * 2 ^ e) : roundedTo num den = m * 2 ^ e := by
  rcases eq_or_ne num 0 with rfl | hnum
  · rw [roundedTo_zero hden, ← h, Nat.cast_zero, zero_div]
  · -- Without a remainder nothing is rounded.
    have hexact : ∀ k : ℕ, (num / den : ℚ) = k * 2 ^ exponentOf num den →
        roundedTo num den = k * 2 ^ exponentOf num den := by
      intro k hk
      have hpower : (2 : ℚ) ^ exponentOf num den ≠ 0 := zpow_ne_zero _ two_ne_zero
      have hscale : ((den * Nat.pow 2 (exponentOf num den).toNat : ℕ) : ℚ) ≠ 0 := by
        exact_mod_cast (scaled_den_pos hden _).ne'
      have hquotient := @scaled_eq num den (exponentOf num den)
      rw [hk, mul_div_cancel_right₀ _ hpower, div_eq_iff hscale] at hquotient
      have hwhole : num * Nat.pow 2 (-exponentOf num den).toNat =
          k * (den * Nat.pow 2 (exponentOf num den).toNat) := by exact_mod_cast hquotient
      rw [roundedTo, mantissaOf, hwhole, divNear_mul_self .even k (scaled_den_pos hden _)]
    rcases le_or_gt (exponentOf num den) e with hsmall | hgreat
    · have hsplit : (m : ℚ) * 2 ^ e =
          (m * 2 ^ (e - exponentOf num den).toNat : ℕ) * 2 ^ exponentOf num den := by
        push_cast
        rw [mul_assoc, ← zpow_natCast, ← zpow_add₀ two_ne_zero]
        congr 2
        omega
      rw [hsplit]
      exact hexact _ (h.trans hsplit)
    · have hlow := exponentOf_le hnum hden (by omega)
      have hbound : (m : ℚ) * 2 ^ e ≤ 2 ^ 53 * 2 ^ e := by
        gcongr
        exact_mod_cast hm
      have hexponent : exponentOf num den = e + 1 := by
        by_contra hne
        have hmore : (2 : ℚ) ^ 52 * 2 ^ (e + 2) ≤ 2 ^ 52 * 2 ^ exponentOf num den := by
          gcongr
          · norm_num
          · omega
        have hpower : (0 : ℚ) < 2 ^ e := by positivity
        rw [zpow_add₀ two_ne_zero] at hmore
        rw [h] at hlow
        linarith
      have hcarry : (m : ℚ) * 2 ^ e = (2 ^ 52 : ℕ) * 2 ^ exponentOf num den := by
        refine le_antisymm (hbound.trans_eq ?_) (by rw [← h]; exact_mod_cast hlow)
        rw [hexponent, zpow_add_one₀ two_ne_zero]
        push_cast
        ring
      rw [hcarry]
      exact hexact _ (h.trans hcarry)

/-- Such a number is a magnitude, up to the greatest exponent. -/
theorem nearest_exact {num den m : ℕ} {e : ℤ} (hden : den ≠ 0) (hm : m ≤ 2 ^ 53)
    (he : -1074 ≤ e) (hlimit : e < 971) (h : (num / den : ℚ) = m * 2 ^ e) :
    ∃ x, nearest num den = some x ∧ x.value = m * 2 ^ e := by
  have hvalue := roundedTo_exact hden hm he h
  cases hx : nearest num den with
  | some x => exact ⟨x, rfl, (value_of_nearest hden hx).trans hvalue⟩
  | none =>
    have hgreat := (nearest_eq_none hden).mp hx
    have hbound : (m : ℚ) * 2 ^ e ≤ 2 ^ 53 * 2 ^ e := by
      gcongr
      exact_mod_cast hm
    have hless : (2 : ℚ) ^ 53 * 2 ^ e < 2 ^ 53 * 2 ^ (971 : ℤ) := by
      gcongr
      norm_num
    rw [hvalue] at hgreat
    exact absurd (hbound.trans_lt hless) (not_lt.mpr hgreat)

/-- Whole numbers of up to 53 bits, and the next one, are magnitudes. -/
theorem nearest_ofNat {n : ℕ} (hn : n ≤ 2 ^ 53) : ∃ x, nearest n 1 = some x ∧ x.value = n := by
  have hexact : ((n : ℚ) / (1 : ℕ)) = n * 2 ^ (0 : ℤ) := by
    rw [Nat.cast_one, div_one, zpow_zero, mul_one]
  obtain ⟨x, hx, hvalue⟩ := nearest_exact one_ne_zero hn (by norm_num) (by norm_num) hexact
  exact ⟨x, hx, by rw [hvalue, zpow_zero, mul_one]⟩

end Magnitude

end GatewayClient
