import GatewayClient.Backoff
import GatewayClient.Proofs.Number.Monotone

/-!
# Waits grow

The wait before a retry is no shorter than the wait before the retry before it
(`Backoff.delayFor_mono`), and no shorter than the base of a backoff that validates
(`Backoff.base_le_delayFor`). Before headroom this is arithmetic of whole numbers. The headroom is a
factor of at least one, and rounding is monotone and leaves whole numbers of up to 53 bits alone, so
that it takes nothing away.
-/

namespace GatewayClient

namespace Magnitude

variable {x y : Option Magnitude}

theorem NoGreater.bind (h : NoGreater x y) {f g : Magnitude → Option Magnitude}
    (hfg : ∀ a b : Magnitude, a.value ≤ b.value → NoGreater (f a) (g b)) :
    NoGreater (x.bind f) (y.bind g) := by
  cases x with
  | none =>
    cases y with
    | none => trivial
    | some b => exact h.elim
  | some a =>
    cases y with
    | none =>
      rw [Option.bind_none]
      cases (some a).bind f <;> trivial
    | some b => exact hfg a b h

end Magnitude

namespace Backoff

/-! ## Headroom -/

/-- The whole milliseconds of a wait that was computed in doubles. -/
def toDelay : Option Magnitude → Nat
  | some s => Nat.min s.round delayLimit
  | none => delayLimit

theorem toDelay_mono {x y : Option Magnitude} (h : Magnitude.NoGreater x y) :
    toDelay x ≤ toDelay y := by
  cases y with
  | none =>
    cases x with
    | none => exact Nat.le_refl _
    | some a => exact Nat.min_le_right _ _
  | some b =>
    cases x with
    | none => exact h.elim
    | some a =>
      exact Nat.le_min.mpr
        ⟨(Nat.min_le_left _ _).trans (Magnitude.round_mono h), Nat.min_le_right _ _⟩

/-- A number of milliseconds times one plus a jitter. -/
def stretched (delay : Nat) (j : Magnitude) : Option Magnitude :=
  (Magnitude.nearest delay 1).bind fun d => (Magnitude.one.add j).bind fun f => d.mul f

theorem withHeadroom_eq {delay : Nat} {jitter : Binary64} {j : Magnitude}
    (hj : jitter.clampUnit = some j) : withHeadroom delay jitter = toDelay (stretched delay j) := by
  unfold withHeadroom
  rw [hj]
  rfl

theorem withHeadroom_none {jitter : Binary64} (hj : jitter.clampUnit = none) (delay : Nat) :
    withHeadroom delay jitter = 0 := by
  unfold withHeadroom
  rw [hj]

theorem stretched_mono {delay delay' : Nat} {j j' : Magnitude} (hle : delay ≤ delay')
    (hj : j.value ≤ j'.value) : Magnitude.NoGreater (stretched delay j) (stretched delay' j') := by
  have hnearest : Magnitude.NoGreater (Magnitude.nearest delay 1) (Magnitude.nearest delay' 1) :=
    Magnitude.nearest_mono one_ne_zero one_ne_zero
      (div_le_div_of_nonneg_right (Nat.cast_le.mpr hle) (Nat.cast_nonneg 1))
  refine hnearest.bind fun a b hab => ?_
  exact (Magnitude.add_mono (le_refl Magnitude.one.value) hj).bind fun f g hfg =>
    Magnitude.mul_mono hab hfg

/-- A factor that is a power of two takes nothing from a wait of up to 53 bits. -/
theorem stretched_exact {delay : Nat} {j f : Magnitude} {e : ℤ} (hdelay : delay ≤ 2 ^ 53)
    (hf : Magnitude.one.add j = some f) (hfactor : f.value = 2 ^ e) (he : -1074 ≤ e)
    (hlimit : e < 971) : ∃ s, stretched delay j = some s ∧ s.value = delay * 2 ^ e := by
  obtain ⟨d, hd, hvalue⟩ := Magnitude.nearest_ofNat hdelay
  rw [stretched, hd, Option.bind_some, hf, Option.bind_some]
  refine Magnitude.nearest_exact (Nat.mul_ne_zero d.den_ne_zero f.den_ne_zero) hdelay he hlimit ?_
  push_cast
  rw [mul_div_mul_comm, ← Magnitude.value_eq, ← Magnitude.value_eq, hvalue, hfactor]

/-- A longer wait has a longer wait with headroom. -/
theorem withHeadroom_mono {delay delay' : Nat} (hle : delay ≤ delay') (jitter : Binary64) :
    withHeadroom delay jitter ≤ withHeadroom delay' jitter := by
  cases hj : jitter.clampUnit with
  | none => rw [withHeadroom_none hj, withHeadroom_none hj]
  | some j =>
    rw [withHeadroom_eq hj, withHeadroom_eq hj]
    exact toDelay_mono (stretched_mono hle (le_refl j.value))

/-- Headroom takes nothing away. -/
theorem le_withHeadroom {delay : Nat} {jitter : Binary64} {j : Magnitude}
    (hj : jitter.clampUnit = some j) (hdelay : delay ≤ 2 ^ 53) :
    delay ≤ withHeadroom delay jitter := by
  have hlimit : delay ≤ delayLimit := hdelay.trans (by decide)
  obtain ⟨d, hd, hvalue⟩ := Magnitude.nearest_ofNat hdelay
  have hwhole : toDelay (some d) = delay := by
    rw [toDelay, Magnitude.round_of_value hvalue]
    exact Nat.min_eq_left hlimit
  rw [withHeadroom_eq hj, stretched, hd, Option.bind_some]
  cases hf : Magnitude.one.add j with
  | none => exact hlimit
  | some f =>
    have hfactor := (Magnitude.oneLe_iff f).mp (Magnitude.oneLe_add Magnitude.oneLe_one hf)
    -- The product is rounded from a number that is no less than the wait.
    have hgrows : Magnitude.NoGreater (some d) (d.mul f) := by
      rw [← hd]
      refine Magnitude.nearest_mono one_ne_zero
        (Nat.mul_ne_zero d.den_ne_zero f.den_ne_zero) ?_
      push_cast
      rw [mul_div_mul_comm, ← Magnitude.value_eq, ← Magnitude.value_eq, div_one, ← hvalue]
      exact le_mul_of_one_le_right d.value_nonneg hfactor
    exact hwhole.symm.le.trans (toDelay_mono hgrows)

/-! ## Delays -/

theorem cappedDelay_mono {base base' max max' : UInt64} {n n' : UInt32} (hbase : base ≤ base')
    (hmax : max ≤ max') (hle : n ≤ n') : cappedDelay base max n ≤ cappedDelay base' max' n' := by
  have hcount : n.toNat ≤ n'.toNat := UInt32.le_iff_toNat_le.mp hle
  have hpower : Nat.pow 2 (Nat.min (n.toNat - 1) 31) ≤ Nat.pow 2 (Nat.min (n'.toNat - 1) 31) :=
    Nat.pow_le_pow_right Nat.two_pos (min_le_min_right 31 (Nat.sub_le_sub_right hcount 1))
  have hproduct := Nat.mul_le_mul (UInt64.le_iff_toNat_le.mp hbase) hpower
  exact max_le_max_right 1
    (min_le_min (min_le_min_right _ hproduct) (UInt64.le_iff_toNat_le.mp hmax))

/-- The greatest delay that can be told does not show: the maximum is no greater. -/
theorem cappedDelay_unlimited (base max : UInt64) (n : UInt32) :
    cappedDelay base max n =
      Nat.max (Nat.min (base.toNat * Nat.pow 2 (Nat.min (n.toNat - 1) 31)) max.toNat) 1 := by
  have hle : max.toNat ≤ delayLimit := Nat.le_sub_one_of_lt max.toNat_lt
  unfold cappedDelay
  dsimp only
  generalize base.toNat * Nat.pow 2 (Nat.min (n.toNat - 1) 31) = exponential
  have hmin : Nat.min (Nat.min exponential delayLimit) max.toNat = Nat.min exponential max.toNat :=
    (min_assoc ..).trans (congrArg (min exponential) (min_eq_right hle))
  rw [hmin]

theorem base_le_cappedDelay {base max : UInt64} (hle : base ≤ max) (n : UInt32) :
    base.toNat ≤ cappedDelay base max n := by
  have hbase : base.toNat ≤ base.toNat * Nat.pow 2 (Nat.min (n.toNat - 1) 31) :=
    Nat.le_mul_of_pos_right _ (Nat.two_pow_pos _)
  have hlimit : base.toNat ≤ delayLimit := Nat.le_sub_one_of_lt base.toNat_lt
  exact (le_min (le_min hbase hlimit) (UInt64.le_iff_toNat_le.mp hle)).trans (le_max_left _ _)

theorem one_le_toNat {n : UInt64} (h : n ≠ 0) : 1 ≤ n.toNat :=
  Nat.one_le_iff_ne_zero.mpr fun hzero => h (UInt64.toNat_inj.mp hzero)

theorem cappedDelay_le {base max : UInt64} (hmax : max ≠ 0) (n : UInt32) :
    cappedDelay base max n ≤ max.toNat :=
  max_le (min_le_right _ _) (one_le_toNat hmax)

variable {b : Backoff}

/-- **The wait after a failure is no shorter than the wait after the failure before it.** -/
theorem delayFor_mono (b : Backoff) {n n' : UInt32} (hle : n ≤ n') :
    b.delayFor n ≤ b.delayFor n' :=
  withHeadroom_mono (cappedDelay_mono (UInt64.le_refl _) (UInt64.le_refl _) hle) _

/-- **No wait of a backoff that validates is shorter than its base.** -/
theorem base_le_delayFor (hvalid : b.validate = .ok ()) (hmax : b.maxDelayMs.toNat ≤ 2 ^ 53)
    (n : UInt32) : b.baseDelayMs.toNat ≤ b.delayFor n := by
  obtain ⟨-, hmaxPos, hle, hunit⟩ := validate_eq_ok.mp hvalid
  obtain ⟨j, hj⟩ : ∃ j, b.jitterFactor.clampUnit = some j :=
    Binary64.exists_clampUnit fun hnan => by rw [hnan] at hunit; cases hunit
  calc b.baseDelayMs.toNat ≤ cappedDelay b.baseDelayMs b.maxDelayMs n := base_le_cappedDelay hle n
    _ ≤ b.delayFor n := le_withHeadroom hj ((cappedDelay_le hmaxPos n).trans hmax)

end Backoff

end GatewayClient
