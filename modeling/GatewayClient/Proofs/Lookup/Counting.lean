import Mathlib.Data.List.Induction
import GatewayClient.RetryCounter

/-!
# What a retry counter counts

A counter stands for the failures since the last reset as a word of 32 bits
(`RetryCounter.attempt_after`). What it tells of a failure comes from an addition of its own, which
stops at the greatest word where the counter starts again at zero. So the two agree until the
failures come to a multiple of `2 ^ 32`, and there they are as far apart as words can be.
-/

namespace GatewayClient

/-- A call on a counter. -/
inductive RetryCall where
  | recordFailure
  | reset
  | attempt
deriving DecidableEq

namespace RetryCounter

/-! ## One failure and more -/

/-- A failure is told with the number to which it is counted, unless the counter starts again. -/
theorem recordFailure_fst {r : RetryCounter} (hcounts : r.recordFailure.2.attempt ≠ 0) :
    r.recordFailure.1 = r.recordFailure.2.attempt := by
  unfold recordFailure at hcounts ⊢
  refine if_neg fun hgreatest => hcounts ?_
  dsimp only
  rw [hgreatest]
  rfl

theorem recordFailure_ofNat {k : Nat} (hlt : k + 1 < UInt32.size) :
    recordFailure ⟨UInt32.ofNat k⟩ = (UInt32.ofNat (k + 1), ⟨UInt32.ofNat (k + 1)⟩) := by
  have hsucc : UInt32.ofNat k + 1 = UInt32.ofNat (k + 1) := (UInt32.ofNat_add k 1).symm
  have hgreatest : ¬ UInt32.ofNat k = 0xFFFFFFFF := by
    intro heq
    have hk := congrArg UInt32.toNat heq
    rw [UInt32.toNat_ofNat_of_lt' (Nat.lt_of_succ_lt hlt)] at hk
    rw [hk] at hlt
    exact absurd hlt (by decide)
  rw [recordFailure, if_neg hgreatest, hsucc]

theorem recordFailures_zero (r : RetryCounter) : r.recordFailures 0 = r :=
  congrArg mk (UInt32.add_zero r.attempt)

theorem recordFailures_succ (n : Nat) (r : RetryCounter) :
    r.recordFailures (n + 1) = (r.recordFailures n).recordFailure.2 := by
  have hsucc : r.attempt + UInt32.ofNat (n + 1) = r.attempt + UInt32.ofNat n + 1 := by
    rw [UInt32.ofNat_add, UInt32.add_assoc]
    rfl
  exact congrArg mk hsucc

/-! ## Calls -/

/-- What a call returns, and the counter after it. -/
def answer (r : RetryCounter) : RetryCall → UInt32 × RetryCounter
  | .recordFailure => r.recordFailure
  | .reset => r.reset
  | .attempt => (r.attempt, r)

/-- A fresh counter after some calls. -/
def after (calls : List RetryCall) : RetryCounter :=
  calls.foldl (fun r call => (r.answer call).2) {}

/-- What a call returns after some others. -/
def told (calls : List RetryCall) (call : RetryCall) : UInt32 :=
  ((after calls).answer call).1

/-- The failures since the last reset. -/
def failures (calls : List RetryCall) : Nat :=
  (calls.reverse.takeWhile (· ≠ .reset)).count .recordFailure

variable {calls : List RetryCall}

theorem after_concat (calls : List RetryCall) (call : RetryCall) :
    after (calls ++ [call]) = ((after calls).answer call).2 := by
  unfold after
  rw [List.foldl_append]
  rfl

theorem failures_recordFailure (calls : List RetryCall) :
    failures (calls ++ [.recordFailure]) = failures calls + 1 := by
  unfold failures
  rw [List.reverse_concat, List.takeWhile_cons_of_pos (by decide), List.count_cons_self]

theorem failures_reset (calls : List RetryCall) : failures (calls ++ [.reset]) = 0 := by
  unfold failures
  rw [List.reverse_concat, List.takeWhile_cons_of_neg (by decide), List.count_nil]

theorem failures_attempt (calls : List RetryCall) :
    failures (calls ++ [.attempt]) = failures calls := by
  unfold failures
  rw [List.reverse_concat, List.takeWhile_cons_of_pos (by decide),
    List.count_cons_of_ne (by decide)]

/-- Without a reset the failures only become more. -/
theorem failures_le_append {more : List RetryCall} (hmore : .reset ∉ more) :
    failures calls ≤ failures (calls ++ more) := by
  have hkept : ∀ call ∈ more.reverse, decide (call ≠ RetryCall.reset) = true := by
    intro call hcall
    refine decide_eq_true ?_
    rintro rfl
    exact hmore (List.mem_reverse.mp hcall)
  unfold failures
  rw [List.reverse_append, List.takeWhile_append_of_pos hkept, List.count_append]
  exact Nat.le_add_left _ _

/-- **A counter is the number of the failures since the last reset, as a word.** -/
theorem attempt_after (calls : List RetryCall) :
    (after calls).attempt = UInt32.ofNat (failures calls) := by
  induction calls using List.reverseRecOn with
  | nil => rfl
  | append_singleton calls call ih =>
    rw [after_concat]
    cases call with
    | recordFailure =>
      rw [failures_recordFailure, UInt32.ofNat_add, ← ih]
      rfl
    | reset =>
      rw [failures_reset]
      rfl
    | attempt =>
      rw [failures_attempt]
      exact ih

/-! ## What is told of the calls -/

theorem toNat_told_attempt (calls : List RetryCall) :
    (told calls .attempt).toNat = failures calls % UInt32.size :=
  (congrArg UInt32.toNat (attempt_after calls)).trans UInt32.toNat_ofNat'

theorem toNat_recordFailure (r : RetryCounter) :
    r.recordFailure.1.toNat = min (r.attempt.toNat + 1) (UInt32.size - 1) := by
  have hword := r.attempt.toNat_lt
  unfold recordFailure
  split
  · next hgreatest =>
    rw [hgreatest]
    rfl
  · next hless =>
    have hless : r.attempt.toNat ≠ UInt32.size - 1 := fun heq => hless (UInt32.toNat.inj heq)
    simp only [UInt32.toNat_add, UInt32.toNat_one, UInt32.size] at hless ⊢
    omega

theorem toNat_told_recordFailure (calls : List RetryCall) :
    (told calls .recordFailure).toNat =
      min (failures calls % UInt32.size + 1) (UInt32.size - 1) := by
  rw [← toNat_told_attempt]
  exact toNat_recordFailure (after calls)

/-- What is told of a failure is reported afterwards until the counter starts again. -/
theorem told_recordFailure_iff :
    told calls .recordFailure = told (calls ++ [.recordFailure]) .attempt
      ↔ ¬ UInt32.size ∣ failures calls + 1 := by
  rw [← UInt32.toNat_inj, toNat_told_recordFailure, toNat_told_attempt, failures_recordFailure]
  simp only [UInt32.size]
  omega

/-- A failure makes a counter less exactly where it starts again. -/
theorem told_attempt_lt_iff :
    told (calls ++ [.recordFailure]) .attempt < told calls .attempt
      ↔ UInt32.size ∣ failures calls + 1 := by
  rw [UInt32.lt_iff_toNat_lt, toNat_told_attempt, toNat_told_attempt, failures_recordFailure]
  simp only [UInt32.size]
  omega

/-- Between two starts of a counter it does not become less. -/
theorem told_attempt_le {more : List RetryCall} (hmore : .reset ∉ more)
    (hrounds : failures (calls ++ more) / UInt32.size = failures calls / UInt32.size) :
    told calls .attempt ≤ told (calls ++ more) .attempt := by
  have hle := @failures_le_append calls _ hmore
  have hbefore := Nat.div_add_mod (failures calls) UInt32.size
  have hafter := Nat.div_add_mod (failures (calls ++ more)) UInt32.size
  rw [hrounds] at hafter
  rw [UInt32.le_iff_toNat_le, toNat_told_attempt, toNat_told_attempt]
  omega

/-- **What the calls on a counter return.** After any calls on a fresh counter it reports the number
`k` of the failures since the last reset, modulo `2 ^ 32`. One more failure is told with `k + 1`
while that is less than `2 ^ 32`, and with what is reported afterwards unless `k + 1` is a multiple
of `2 ^ 32`. A reset returns what was reported before it and leaves zero, and a report changes
nothing. Without a reset a failure makes the counter less exactly where `k + 1` is such a multiple;
between two of them it never becomes less, however many calls there are. -/
theorem calls_count_failures (calls : List RetryCall) :
    (told calls .attempt).toNat = failures calls % UInt32.size
      ∧ (told calls .recordFailure).toNat =
        min (failures calls % UInt32.size + 1) (UInt32.size - 1)
      ∧ (told calls .recordFailure = told (calls ++ [.recordFailure]) .attempt
        ↔ ¬ UInt32.size ∣ failures calls + 1)
      ∧ (failures calls + 1 < UInt32.size →
        (told calls .recordFailure).toNat = failures calls + 1)
      ∧ told calls .reset = told calls .attempt
      ∧ told (calls ++ [.reset]) .attempt = 0
      ∧ (∀ call, told (calls ++ [.attempt]) call = told calls call)
      ∧ (told (calls ++ [.recordFailure]) .attempt < told calls .attempt
        ↔ UInt32.size ∣ failures calls + 1)
      ∧ ∀ more, .reset ∉ more →
        failures (calls ++ more) / UInt32.size = failures calls / UInt32.size →
          told calls .attempt ≤ told (calls ++ more) .attempt := by
  refine ⟨toNat_told_attempt calls, toNat_told_recordFailure calls, told_recordFailure_iff,
    ?counted, rfl, ?fresh, ?asked, told_attempt_lt_iff, fun _ => told_attempt_le⟩
  case counted =>
    intro hlt
    rw [toNat_told_recordFailure, Nat.mod_eq_of_lt (Nat.lt_of_succ_lt hlt)]
    exact Nat.min_eq_left (Nat.le_sub_one_of_lt hlt)
  case fresh =>
    unfold told
    rw [after_concat]
    rfl
  case asked =>
    intro call
    unfold told
    rw [after_concat]
    rfl

/-- Two failures, a reset and a third failure. -/
theorem calls_count_failures_reset :
    told [.recordFailure, .recordFailure, .reset] .recordFailure = 1
      ∧ told [.recordFailure, .recordFailure] .reset = 2
      ∧ told [.recordFailure, .recordFailure, .reset] .attempt
        ≤ told [.recordFailure, .recordFailure, .reset, .recordFailure] .attempt := by
  obtain ⟨-, -, -, hcounted, -, -, -, -, hmore⟩ :=
    calls_count_failures [.recordFailure, .recordFailure, .reset]
  obtain ⟨hreported, -, -, -, hreset, -⟩ := calls_count_failures [.recordFailure, .recordFailure]
  exact ⟨UInt32.toNat.inj (hcounted (by decide)), hreset.trans (UInt32.toNat.inj hreported),
    hmore [.recordFailure] (by decide) (by decide)⟩

theorem after_failures (n : Nat) :
    after (List.replicate n .recordFailure) = recordFailures n {} := by
  induction n with
  | zero => rfl
  | succ n ih =>
    rw [List.replicate_succ', after_concat, ih, recordFailures_succ]
    rfl

/-- After `2 ^ 32 - 1` failures one more is told with the greatest word, and zero is reported. -/
theorem counter_starts_again :
    ∃ calls : List RetryCall, .reset ∉ calls
      ∧ told calls .attempt = 0xFFFFFFFF
      ∧ told calls .recordFailure = 0xFFFFFFFF
      ∧ told (calls ++ [.recordFailure]) .attempt = 0 := by
  refine ⟨List.replicate 0xFFFFFFFF .recordFailure, ?_, ?_, ?_, ?_⟩
  · exact fun hmem => RetryCall.noConfusion (List.eq_of_mem_replicate hmem)
  · rw [told, after_failures]
    rfl
  · rw [told, after_failures]
    rfl
  · rw [told, after_concat, after_failures]
    rfl

end RetryCounter

end GatewayClient
