import GatewayClient.Proofs.Lookup.Doubling

/-!
# Waits between bounds

A wait grows with each of the numbers it is computed from: the attempt, the base, the maximum and
the jitter (`Backoff.delayFor_le_delayFor`). Each step of the computation is monotone, and none
leaves its range, because the greatest wait with the greatest headroom is a finite double
(`Backoff.inRange`). A wait of up to 53 bits before headroom is at most doubled by it, since one
plus a jitter lies between one and two, which are powers of two, and a product with a power of two
is not rounded.
-/

namespace GatewayClient

namespace Magnitude

/-- The greatest factor of headroom. -/
def two : Magnitude := ⟨Nat.pow 2 52, -51⟩

theorem one_add_one : one.add one = some two := by decide +kernel

theorem value_two : two.value = 2 ^ (1 : ℤ) := by
  have hpower : (2 : ℚ) ^ (-51 : ℤ) * 2 ^ (52 : ℤ) = 2 ^ (1 : ℤ) := by
    rw [← zpow_add₀ two_ne_zero]
    norm_num
  rw [value, two, ← hpower, Nat.pow_eq, mul_comm]
  norm_cast

end Magnitude

namespace Backoff

/-! ## Headroom -/

variable {delay : Nat} {jitter : Binary64}

/-- Headroom at most doubles a wait. -/
theorem withHeadroom_le {j : Magnitude} (hj : jitter.clampUnit = some j) (hdelay : delay ≤ 2 ^ 53) :
    withHeadroom delay jitter ≤ 2 * delay := by
  obtain ⟨s, hs, hvalue⟩ := stretched_exact hdelay Magnitude.one_add_one Magnitude.value_two
    (by norm_num) (by norm_num)
  have hdouble : s.value = (2 * delay : ℕ) := by
    rw [hvalue, zpow_one, mul_comm]
    norm_cast
  have hone : j.value ≤ Magnitude.one.value :=
    (Binary64.value_clampUnit_le_one hj).trans_eq Magnitude.value_one.symm
  calc withHeadroom delay jitter = toDelay (stretched delay j) := withHeadroom_eq hj
    _ ≤ toDelay (stretched delay .one) := toDelay_mono (stretched_mono (le_refl delay) hone)
    _ = Nat.min s.round delayLimit := by rw [hs, toDelay]
    _ ≤ s.round := Nat.min_le_left _ _
    _ = 2 * delay := Magnitude.round_of_value hdouble

/-- A jitter of zero or less leaves a wait as it is. -/
theorem withHeadroom_of_nonpos (hjitter : jitter.NoGreater .zero) (hdelay : delay ≤ 2 ^ 53) :
    withHeadroom delay jitter = delay := by
  obtain ⟨j, k, hj, hk, hle⟩ := Binary64.clampUnit_mono hjitter
  refine le_antisymm ?_ (le_withHeadroom hj hdelay)
  calc withHeadroom delay jitter = toDelay (stretched delay j) := withHeadroom_eq hj
    _ ≤ toDelay (stretched delay k) := toDelay_mono (stretched_mono (le_refl delay) hle)
    _ = withHeadroom delay .zero := (withHeadroom_eq hk).symm
    _ = delay := withHeadroom_zero (clampUnit_of_eqv_zero (by decide +kernel)) hdelay

/-- The greatest word with the greatest headroom is a finite double, and so are all others. -/
theorem stretched_finite {j : Magnitude} (hdelay : delay < UInt64.size)
    (hj : jitter.clampUnit = some j) : ∃ s, stretched delay j = some s := by
  have hgreatest : (stretched UInt64.size .one).isSome := by decide +kernel
  obtain ⟨t, ht⟩ := Option.isSome_iff_exists.mp hgreatest
  have hone : j.value ≤ Magnitude.one.value :=
    (Binary64.value_clampUnit_le_one hj).trans_eq Magnitude.value_one.symm
  have hle := stretched_mono hdelay.le hone
  rw [ht] at hle
  cases hs : stretched delay j with
  | none =>
    rw [hs] at hle
    exact hle.elim
  | some s => exact ⟨s, rfl⟩

/-! ## Delays -/

/-- The wait before headroom, over whole numbers without a limit. -/
def exactDelay (b : Backoff) (attempt : UInt32) : Nat :=
  Nat.max
    (Nat.min (b.baseDelayMs.toNat * Nat.pow 2 (Nat.min (attempt.toNat - 1) 31))
      b.maxDelayMs.toNat) 1

/-- No step of the computation of a wait leaves its range: the power of two is a shift within a
word, the wait before headroom is a word, the doubles are finite, and the wait is a word. -/
structure InRange (b : Backoff) (attempt : UInt32) : Prop where
  shift : Nat.pow 2 (Nat.min (attempt.toNat - 1) 31) < UInt64.size
  capped : cappedDelay b.baseDelayMs b.maxDelayMs attempt < UInt64.size
  finite : ∃ j s, b.jitterFactor.clampUnit = some j
    ∧ stretched (cappedDelay b.baseDelayMs b.maxDelayMs attempt) j = some s
  delay : b.delayFor attempt < UInt64.size

theorem cappedDelay_lt (base max : UInt64) (n : UInt32) : cappedDelay base max n < UInt64.size := by
  rw [cappedDelay_unlimited]
  exact max_lt ((min_le_right _ _).trans_lt max.toNat_lt) (by decide)

theorem withHeadroom_lt (delay : Nat) (jitter : Binary64) :
    withHeadroom delay jitter < UInt64.size := by
  have hlimit : delayLimit < UInt64.size := by decide
  cases hj : jitter.clampUnit with
  | none => exact (withHeadroom_none hj delay).trans_lt (by decide)
  | some j =>
    rw [withHeadroom_eq hj]
    cases stretched delay j with
    | none => exact hlimit
    | some s => exact (Nat.min_le_right _ _).trans_lt hlimit

variable {b b' : Backoff} {n n' : UInt32}

theorem inRange (hnumber : b.jitterFactor ≠ .nan) (n : UInt32) : b.InRange n := by
  have hcapped := cappedDelay_lt b.baseDelayMs b.maxDelayMs n
  obtain ⟨j, hj⟩ := Binary64.exists_clampUnit hnumber
  obtain ⟨s, hs⟩ := stretched_finite hcapped hj
  have hshift : Nat.pow 2 (Nat.min (n.toNat - 1) 31) ≤ Nat.pow 2 31 :=
    Nat.pow_le_pow_right Nat.two_pos (Nat.min_le_right _ _)
  exact ⟨hshift.trans_lt (by decide), hcapped, ⟨j, s, hj, hs⟩, withHeadroom_lt _ _⟩

/-- A wait is monotone in all that it is computed from. -/
theorem delayFor_le_delayFor (hn : n ≤ n') (hbase : b.baseDelayMs ≤ b'.baseDelayMs)
    (hmax : b.maxDelayMs ≤ b'.maxDelayMs) (hjitter : b.jitterFactor.NoGreater b'.jitterFactor) :
    b.delayFor n ≤ b'.delayFor n' := by
  obtain ⟨j, k, hj, hk, hle⟩ := Binary64.clampUnit_mono hjitter
  calc b.delayFor n = toDelay (stretched _ j) := withHeadroom_eq hj
    _ ≤ toDelay (stretched _ k) := toDelay_mono (stretched_mono (cappedDelay_mono hbase hmax hn) hle)
    _ = b'.delayFor n' := (withHeadroom_eq hk).symm

/-- **Waits are monotone and bounded.** For every attempt and all delays, and for every jitter but
a NaN, no step of the computation leaves its range. The wait is no longer than that of any attempt
that is no earlier, by a base, a maximum and a jitter that are no less. And where the wait before
headroom has up to 53 bits, the wait lies between it and its double, and is the same for a jitter of
zero or less. -/
theorem delayFor_monotone_bounded (hnumber : b.jitterFactor ≠ .nan) (n : UInt32) :
    b.InRange n
      ∧ (∀ (b' : Backoff) (n' : UInt32), n ≤ n' → b.baseDelayMs ≤ b'.baseDelayMs →
        b.maxDelayMs ≤ b'.maxDelayMs → b.jitterFactor.NoGreater b'.jitterFactor →
          b.delayFor n ≤ b'.delayFor n')
      ∧ (b.exactDelay n ≤ 2 ^ 53 →
        b.exactDelay n ≤ b.delayFor n ∧ b.delayFor n ≤ 2 * b.exactDelay n
          ∧ (b.jitterFactor.NoGreater .zero → b.delayFor n = b.exactDelay n)) := by
  refine ⟨inRange hnumber n, fun b' n' hn hbase hmax hjitter =>
    delayFor_le_delayFor hn hbase hmax hjitter, fun hexact => ?_⟩
  have hcapped : cappedDelay b.baseDelayMs b.maxDelayMs n = b.exactDelay n :=
    cappedDelay_unlimited ..
  obtain ⟨j, hj⟩ := Binary64.exists_clampUnit hnumber
  rw [delayFor, hcapped]
  exact ⟨le_withHeadroom hj hexact, withHeadroom_le hj hexact,
    fun hnonpos => withHeadroom_of_nonpos hnonpos hexact⟩

/-- A maximum below the base with a jitter of minus infinity, before the first attempt, and the
greatest numbers there are at the last one. -/
theorem delayFor_monotone_bounded_extremes :
    delayFor ⟨3000, 1000, .infinite true⟩ 0 = 1000
      ∧ (1000 : Nat) ≤ delayFor ⟨0xFFFFFFFFFFFFFFFF, 0xFFFFFFFFFFFFFFFF, .infinite false⟩ 0xFFFFFFFF
      ∧ InRange ⟨0xFFFFFFFFFFFFFFFF, 0xFFFFFFFFFFFFFFFF, .infinite false⟩ 0xFFFFFFFF := by
  have hleast := delayFor_monotone_bounded (b := ⟨3000, 1000, .infinite true⟩) nofun 0
  have hgreatest := delayFor_monotone_bounded
    (b := ⟨0xFFFFFFFFFFFFFFFF, 0xFFFFFFFFFFFFFFFF, .infinite false⟩) nofun 0xFFFFFFFF
  have hwait : delayFor ⟨3000, 1000, .infinite true⟩ 0 = 1000 := (hleast.2.2 (by decide)).2.2 trivial
  have hmono := hleast.2.1 ⟨0xFFFFFFFFFFFFFFFF, 0xFFFFFFFFFFFFFFFF, .infinite false⟩ 0xFFFFFFFF
    (by decide) (by decide) (by decide) trivial
  exact ⟨hwait, hwait ▸ hmono, hgreatest.1⟩

end Backoff

end GatewayClient
