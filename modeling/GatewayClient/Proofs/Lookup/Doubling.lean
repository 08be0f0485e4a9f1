import GatewayClient.Proofs.Lookup.Growth
import GatewayClient.Proofs.Number.Order

/-!
# Waits double

Without a jitter nothing is added to a wait, and nothing is lost on the way through doubles as long
as the wait has up to 53 bits (`withHeadroom_zero`). What is left of a backoff that validates is the
base doubled once for each attempt after the first, within the maximum, where no more than 31
doublings count (`delayFor_eq`). Doubling without that limit (`doubled`) comes to the same for the
first 32 attempts, and for all of them if 31 doublings reach the maximum (`delayFor_doubles`); if
they do not, the waits stay below the maximum for good.
-/

namespace GatewayClient

namespace Magnitude

theorem one_add_zero : one.add zero = some one := by decide +kernel

end Magnitude

namespace Backoff

/-! ## Without headroom -/

variable {delay : Nat} {jitter : Binary64}

theorem clampUnit_of_eqv_zero (h : jitter.eqv .zero = true) : jitter.clampUnit = some .zero := by
  cases jitter with
  | nan => cases h
  | infinite negative => cases h
  | finite negative size =>
    have hsize : size = .zero := by
      have hboth := (Bool.and_eq_true_iff.mp h).1
      simpa using hboth
    subst hsize
    cases negative with
    | true => rfl
    | false =>
      have hle : Magnitude.zero.num ≤ Magnitude.zero.den := by decide +kernel
      exact congrArg some (if_pos hle)

theorem stretched_zero (hdelay : delay ≤ 2 ^ 53) :
    ∃ s, stretched delay .zero = some s ∧ s.value = delay := by
  obtain ⟨s, hs, hvalue⟩ := stretched_exact hdelay Magnitude.one_add_zero
    (e := 0) (by rw [Magnitude.value_one, zpow_zero]) (by norm_num) (by norm_num)
  exact ⟨s, hs, by rw [hvalue, zpow_zero, mul_one]⟩

/-- Without a jitter a wait stays as it is. -/
theorem withHeadroom_zero (hj : jitter.clampUnit = some .zero) (hdelay : delay ≤ 2 ^ 53) :
    withHeadroom delay jitter = delay := by
  obtain ⟨s, hs, hvalue⟩ := stretched_zero hdelay
  rw [withHeadroom_eq hj, hs, toDelay, Magnitude.round_of_value hvalue]
  exact Nat.min_eq_left (hdelay.trans (by decide))

/-! ## Doublings -/

/-- The base doubled once for each attempt after the first, within the maximum. -/
def doubled (b : Backoff) (attempt : UInt32) : Nat :=
  Nat.min b.maxDelayMs.toNat (b.baseDelayMs.toNat * Nat.pow 2 (attempt.toNat - 1))

/-- The least delay does not show if base and maximum are positive. -/
theorem cappedDelay_eq {base limit : UInt64} (hbase : base ≠ 0) (hlimit : limit ≠ 0) (n : UInt32) :
    cappedDelay base limit n =
      Nat.min limit.toNat (base.toNat * Nat.pow 2 (Nat.min (n.toNat - 1) 31)) := by
  have hone : 1 ≤ base.toNat * Nat.pow 2 (Nat.min (n.toNat - 1) 31) :=
    Nat.mul_pos (one_le_toNat hbase) (Nat.two_pow_pos _)
  rw [cappedDelay_unlimited]
  exact (max_eq_left (le_min hone (one_le_toNat hlimit))).trans (min_comm _ _)

/-- A limit on the doublings does not show if it is not reached, or if the maximum is. -/
theorem min_doublings_eq_iff {base limit count : Nat} (hbase : 0 < base) (most : Nat) :
    Nat.min limit (base * Nat.pow 2 (Nat.min count most)) =
        Nat.min limit (base * Nat.pow 2 count) ↔
      count ≤ most ∨ limit ≤ base * Nat.pow 2 most := by
  by_cases hcount : count ≤ most
  · have hmin : Nat.min count most = count := Nat.min_eq_left hcount
    rw [hmin]
    exact iff_of_true rfl (.inl hcount)
  · have hmin : Nat.min count most = most := Nat.min_eq_right (Nat.le_of_not_le hcount)
    have hless : base * Nat.pow 2 most < base * Nat.pow 2 count :=
      Nat.mul_lt_mul_of_pos_left
        (Nat.pow_lt_pow_right Nat.one_lt_two (Nat.lt_of_not_le hcount)) hbase
    rw [hmin]
    generalize base * Nat.pow 2 most = fewer at hless ⊢
    generalize base * Nat.pow 2 count = more at hless ⊢
    show min limit fewer = min limit more ↔ _
    omega

variable {b : Backoff}

/-- Without a jitter a wait is the base doubled at most 31 times, within the maximum. -/
theorem delayFor_eq (hvalid : b.validate = .ok ()) (hjitter : b.jitterFactor.eqv .zero = true)
    (hmax : b.maxDelayMs.toNat ≤ 2 ^ 53) (n : UInt32) :
    b.delayFor n =
      Nat.min b.maxDelayMs.toNat
        (b.baseDelayMs.toNat * Nat.pow 2 (Nat.min (n.toNat - 1) 31)) := by
  obtain ⟨hbasePos, hmaxPos, -, -⟩ := validate_eq_ok.mp hvalid
  calc b.delayFor n = cappedDelay b.baseDelayMs b.maxDelayMs n :=
        withHeadroom_zero (clampUnit_of_eqv_zero hjitter) ((cappedDelay_le hmaxPos n).trans hmax)
    _ = _ := cappedDelay_eq hbasePos hmaxPos n

/-- From the 32nd wait on all waits are the same. -/
theorem delayFor_of_le (hvalid : b.validate = .ok ()) (hjitter : b.jitterFactor.eqv .zero = true)
    (hmax : b.maxDelayMs.toNat ≤ 2 ^ 53) {n : UInt32} (hn : 32 ≤ n.toNat) :
    b.delayFor n = Nat.min b.maxDelayMs.toNat (b.baseDelayMs.toNat * Nat.pow 2 31) := by
  have hmin : Nat.min (n.toNat - 1) 31 = 31 := Nat.min_eq_right (Nat.le_sub_one_of_lt hn)
  rw [delayFor_eq hvalid hjitter hmax, hmin]

/-- **Waits double from the base up to the maximum.** Without a jitter the wait before a retry is
the base doubled once for each attempt after the first, within the maximum, exactly if it is one of
the first 32 waits or 31 doublings reach the maximum; and the waits come to the maximum for good
exactly if 31 doublings reach it. -/
theorem delayFor_doubles (hvalid : b.validate = .ok ())
    (hjitter : b.jitterFactor.eqv .zero = true) (hmax : b.maxDelayMs.toNat ≤ 2 ^ 53) :
    (∀ n : UInt32, b.delayFor n = b.doubled n ↔
      n.toNat ≤ 32 ∨ b.maxDelayMs.toNat ≤ b.baseDelayMs.toNat * 2 ^ 31) ∧
    ((∃ last : UInt32, ∀ n, last ≤ n → b.delayFor n = b.maxDelayMs.toNat) ↔
      b.maxDelayMs.toNat ≤ b.baseDelayMs.toNat * 2 ^ 31) := by
  obtain ⟨hbasePos, -, -, -⟩ := validate_eq_ok.mp hvalid
  refine ⟨fun n => ?_, ?_, ?_⟩
  · rw [delayFor_eq hvalid hjitter hmax, doubled, min_doublings_eq_iff (one_le_toNat hbasePos) 31]
    exact or_congr_left (by omega)
  · rintro ⟨last, hlast⟩
    -- Wherever the waits come to the maximum, they are there at the last number of an attempt.
    have hend : last ≤ 4294967295 :=
      UInt32.le_iff_toNat_le.mpr (Nat.le_sub_one_of_lt last.toNat_lt)
    have hthere := hlast 4294967295 hend
    rw [delayFor_of_le hvalid hjitter hmax (by decide)] at hthere
    exact min_eq_left_iff.mp hthere
  · intro hreached
    refine ⟨32, fun n hn => ?_⟩
    rw [delayFor_of_le hvalid hjitter hmax (UInt32.le_iff_toNat_le.mp hn)]
    exact Nat.min_eq_left hreached

/-- The default waits double from a second and come to a minute. -/
theorem delayFor_doubles_default :
    delayFor {} 7 = doubled {} 7 ∧
      ∃ last : UInt32, ∀ n, last ≤ n → delayFor {} n = 60000 := by
  have hdoubles := delayFor_doubles validate_default (by decide +kernel) (by decide)
  exact ⟨(hdoubles.1 7).mpr (.inl (by decide)), hdoubles.2.mpr (by decide)⟩

/-- From a base of one millisecond 31 doublings do not reach a maximum of 2 ^ 40 milliseconds: the
wait before retry 33 is shorter than the base doubled 32 times, and no wait is the maximum. -/
theorem delayFor_stops_doubling :
    ∃ b : Backoff, b.validate = .ok () ∧ b.jitterFactor.eqv .zero = true ∧
      b.maxDelayMs.toNat ≤ 2 ^ 53 ∧ b.delayFor 33 < b.doubled 33 ∧
      ∀ n, b.delayFor n < b.maxDelayMs.toNat := by
  let b : Backoff := { baseDelayMs := 1, maxDelayMs := 1099511627776 }
  have hunit : Binary64.zero.isUnit = true := by decide +kernel
  have hvalid : b.validate = .ok () :=
    validate_eq_ok.mpr ⟨by decide, by decide, by decide, hunit⟩
  have hjitter : b.jitterFactor.eqv .zero = true := by decide +kernel
  have hmax : b.maxDelayMs.toNat ≤ 2 ^ 53 := by decide
  refine ⟨b, hvalid, hjitter, hmax, ?_, fun n => ?_⟩
  · rw [delayFor_of_le hvalid hjitter hmax (by decide)]
    decide
  · have hpower : Nat.pow 2 (Nat.min (n.toNat - 1) 31) ≤ Nat.pow 2 31 :=
      Nat.pow_le_pow_right Nat.two_pos (Nat.min_le_right _ _)
    calc b.delayFor n = Nat.min _ (_ * Nat.pow 2 (Nat.min (n.toNat - 1) 31)) :=
          delayFor_eq hvalid hjitter hmax n
      _ ≤ b.baseDelayMs.toNat * Nat.pow 2 31 :=
          (Nat.min_le_right _ _).trans (Nat.mul_le_mul_left _ hpower)
      _ < b.maxDelayMs.toNat := by decide

end Backoff

end GatewayClient
