import GatewayClient.Proofs.Lookup.Pace
import GatewayClient.Proofs.Lookup.Retries
import GatewayClient.Proofs.Lookup.Spacing

/-!
# Every pause is a wait of the backoff

A lookup may be given any backoff, one that describes no wait too, and a counter that has counted
anything. What it then does between two attempts is still to wait as long as its backoff says for
some number (`Lookup.journey_waits`). So it is enough to know which backoffs take time: all of them,
for every attempt, but those with a NaN as their jitter, which never do (`Backoff.one_le_delayFor`).
-/

namespace GatewayClient

/-! ## Backoffs that take time -/

namespace Backoff

/-- A wait takes at least a millisecond unless the jitter is a NaN. -/
theorem one_le_delayFor {b : Backoff} {n : UInt32} :
    1 ≤ b.delayFor n ↔ b.jitterFactor ≠ .nan := by
  refine ⟨?_, fun hnumber => paced_of_ne_nan hnumber n⟩
  intro hpositive hnan
  have hzero : b.delayFor n = 0 := withHeadroom_none (by rw [hnan]; rfl) _
  omega

end Backoff

namespace Lookup

variable {w₀ : World} {l₀ : Lookup} {legs : List Leg} {s : Scene} {phase : Option LookupPhase}
  {wake : Wake}

/-! ## Pauses -/

/-- Where a leg leaves a lookup in a backoff, it does so for as long as the backoff says. -/
theorem Leg.backs_off_until {g : Leg} {n : UInt32} {due : Nat}
    (harrival : g.arrival = .asleep (.backingOff n) due) :
    due = g.time + Nat.min (g.lookup.backoff.delayFor n) Scheduler.longestWait := by
  rw [Leg.arrival] at harrival
  cases hnext : g.step.next with
  | wait phase ms =>
    rw [hnext, Place.ofNext, Place.asleep.injEq] at harrival
    obtain ⟨rfl, rfl⟩ := harrival
    rw [← Leg.backs_off hnext]
    exact Scheduler.dueIn_eq _ _
  | returned result | faulted f =>
    rw [hnext] at harrival
    cases harrival

/-- What the pauses of a lookup have been like so far: waits of its backoff, and where it is pausing
it has been since its last leg and will be for such a wait. -/
structure Waits (b : Backoff) (legs : List Leg) (place : Place) : Prop where
  before : ∀ x ∈ pauses legs, ∃ n, x = Nat.min (b.delayFor n) Scheduler.longestWait
  pausing : ∀ n due, place = .asleep (.backingOff n) due → ∃ past g, legs = past ++ [g]
    ∧ due = g.time + Nat.min (b.delayFor n) Scheduler.longestWait

/-- An attempt begins at the call, or when a pause is over. -/
theorem Waits.begins (hwaits : Waits l₀.backoff legs s.place)
    (hjourney : Journey ⟨w₀, l₀, .called⟩ legs s) (hready : s.Ready phase wake)
    (hbegins : Begins phase wake) {c : ProbeCourse}
    (hcourse : (s.leg phase wake).course? = some c) {x : Nat}
    (hx : x ∈ pauses (legs ++ [s.leg phase wake])) :
    ∃ n, x = Nat.min (l₀.backoff.delayFor n) Scheduler.longestWait := by
  cases hready with
  | called hplace =>
    obtain rfl : legs = [] := (hplace ▸ hjourney.trail).called_nil
    cases hx
  | token => cases hbegins with | backedOff hwake => exact absurd rfl hwake
  | @timer phase due hplace hdue =>
    cases hbegins with
    | @backedOff n _ _ =>
      obtain ⟨past, g, rfl, hover⟩ := hwaits.pausing n due hplace
      have htime : s.time = due := Nat.le_antisymm (hjourney.punctual hplace) hdue
      rw [pauses_some hcourse, List.mem_append, List.mem_singleton] at hx
      rcases hx with hbefore | rfl
      · exact hwaits.before x hbefore
      · refine ⟨n, ?_⟩
        show s.time - g.time = _
        rw [htime, hover, Nat.add_sub_cancel_left]

/-- **Every pause of a lookup is a wait of its backoff.** -/
theorem journey_waits (hjourney : Journey ⟨w₀, l₀, .called⟩ legs s) :
    Waits l₀.backoff legs s.place := by
  induction hjourney with
  | here =>
    constructor
    · intro x hx
      cases hx
    · intro n due hplace
      cases hplace
  | passes _ _ ih => exact ih
  | @runs legs s phase wake hjourney hready ih =>
    constructor
    · rcases (s.leg phase wake).step_cases with
        ⟨c, hbegins, -, hcourse, -⟩ | ⟨p, -, hcourse, -⟩ | ⟨told, -, -, hcourse, -⟩
      · intro x hx
        exact ih.begins hjourney hready hbegins hcourse hx
      · rw [pauses_none hcourse]
        exact ih.before
      · rw [pauses_none hcourse]
        exact ih.before
    · intro n due harrival
      refine ⟨legs, s.leg phase wake, rfl, ?_⟩
      rw [Leg.backs_off_until harrival, ← hjourney.trail.alike.1.backoff]
      rfl

/-- **A lookup never retries without waiting, unless its jitter is a NaN.** For every backoff,
whether or not it validates, and every attempt the wait is at least a millisecond exactly if the
jitter is not a NaN. So whatever else a lookup with the backoff is called with, whatever its counter
says and however many attempts fail, each pause between two of its attempts takes at least a
millisecond if the jitter is not a NaN. A wait for a lookup is such a journey. -/
theorem pauses_take_time (b : Backoff) :
    (∀ n, 1 ≤ b.delayFor n ↔ b.jitterFactor ≠ .nan)
      ∧ (b.jitterFactor ≠ .nan → ∀ (w₀ : World) (l₀ : Lookup) (legs : List Leg) (s : Scene),
        l₀.backoff = b → Journey ⟨w₀, l₀, .called⟩ legs s → ∀ x ∈ pauses legs, 1 ≤ x)
      ∧ ∀ (w₀ : World) (l₀ : Lookup) (n : Nat), w₀.scheduler.running = true →
        ∃ legs s, Journey ⟨w₀, l₀, .called⟩ legs s ∧ w₀.await n (.lookup l₀ none) = s.told := by
  refine ⟨fun n => Backoff.one_le_delayFor, ?_,
    fun w₀ l₀ n hrunning => await_journey n (s := ⟨w₀, l₀, .called⟩) hrunning .called⟩
  rintro hnumber w₀ l₀ legs s rfl hjourney x hx
  obtain ⟨n, rfl⟩ := (journey_waits hjourney).before x hx
  exact Nat.le_min.mpr ⟨Backoff.one_le_delayFor.mpr hnumber, by decide⟩

/-! A lookup with some backoff whose first attempt is refused. -/

def refusedScene (b : Backoff) : Scene := ⟨World.refusingWorld, World.lookupBy b, .called⟩

/-- The end of its pause. -/
def retriedScene (b : Backoff) : Scene :=
  { (refusedScene b).ran none .started with
    world :=
      { ((refusedScene b).ran none .started).world with
        scheduler :=
          ((refusedScene b).ran none .started).world.scheduler.moveTo
            (Nat.min (b.delayFor 1) Scheduler.longestWait) } }

def retriedLegs (b : Backoff) : List Leg :=
  [(refusedScene b).leg none .started, (retriedScene b).leg (some (.backingOff 1)) .timer]

theorem journey_retried (b : Backoff) :
    Journey (refusedScene b) (retriedLegs b)
      ((retriedScene b).ran (some (.backingOff 1)) .timer) := by
  have hplace : ((refusedScene b).ran none .started).place =
      .asleep (.backingOff 1) (Nat.min (b.delayFor 1) Scheduler.longestWait) :=
    congrArg (Place.asleep (.backingOff 1)) ((Scheduler.dueIn_eq _ _).trans (Nat.zero_add _))
  have hpasses : ((refusedScene b).ran none .started).Passes (retriedScene b).world := by
    refine .elapses (Nat.le_max_left _ _) ?_ rfl
    rw [Scene.Allows, hplace]
    exact ⟨Nat.max_le.mpr ⟨Nat.zero_le _, Nat.le_max_right _ _⟩,
      fun hheard => absurd hheard (Scene.not_hears rfl _)⟩
  exact ((Journey.here.runs (.called rfl)).passes hpasses).runs
    (.timer hplace (Nat.le_max_right _ _))

/-- Delays of zero and an infinite jitter, which do not validate. -/
theorem pauses_take_time_infinite :
    Backoff.validate ⟨0, 0, .infinite false⟩ = .error .zeroBase
      ∧ pauses (retriedLegs ⟨0, 0, .infinite false⟩) = [2] ∧ 1 ≤ 2 := by
  have hpauses : pauses (retriedLegs ⟨0, 0, .infinite false⟩) = [2] := by decide +kernel
  have htime := (pauses_take_time ⟨0, 0, .infinite false⟩).2.1 nofun _ _ _ _ rfl
    (journey_retried ⟨0, 0, .infinite false⟩) 2
  rw [hpauses] at htime
  exact ⟨rfl, hpauses, htime (List.mem_singleton_self 2)⟩

/-- With a NaN as the jitter no wait takes time, and a lookup retries at once. -/
theorem nan_retries_at_once :
    ∃ b : Backoff, (∀ n, b.delayFor n = 0)
      ∧ ∃ legs s, Journey ⟨World.refusingWorld, World.lookupBy b, .called⟩ legs s
        ∧ pauses legs = [0] :=
  ⟨⟨1000, 60000, .nan⟩, fun _ => Backoff.withHeadroom_none rfl _, _, _, journey_retried _,
    by decide +kernel⟩

end Lookup

end GatewayClient
