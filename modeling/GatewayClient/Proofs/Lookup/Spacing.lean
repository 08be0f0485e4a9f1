import GatewayClient.Proofs.Lookup.Alone
import GatewayClient.Proofs.Lookup.Growth
import GatewayClient.Proofs.Scenario.Kept

/-!
# No lookup probes in a hot loop

Between two attempts a lookup pauses: from the leg in which an attempt fails to the leg in which the
next one begins (`pauses`). On every journey these pauses are the waits of its backoff for the first
failure, the second and so on (`journey_pauses`), whether or not the token is cancelled later. As
every client has a backoff that validates, no pause of a lookup that it starts is shorter than the
base delay, up to the longest wait of the clock, or shorter than the pause before (`pauses_spaced`).
-/

namespace GatewayClient

open World (Interleaving)

/-- How long a lookup pauses after `k` failures and one more. -/
def Backoff.pause (b : Backoff) (k : Nat) : Nat :=
  Nat.min (b.delayFor (UInt32.ofNat (k + 1))) Scheduler.longestWait

namespace Lookup

/-! ## Pauses -/

/-- The pauses between the attempts of some legs: whenever an attempt begins, the time since the leg
before, in which the attempt before it failed. -/
def pauses : List Leg → List Nat
  | g :: g' :: legs => (g'.course?.map fun _ => g'.time - g.time).toList ++ pauses (g' :: legs)
  | _ => []

theorem pauses_concat : ∀ (legs : List Leg) (g : Leg), pauses (legs ++ [g]) =
    pauses legs ++ (legs.getLast?.bind fun g₀ => g.course?.map fun _ => g.time - g₀.time).toList
  | [], _ => rfl
  | [g₀], g => List.append_nil _
  | g₁ :: g₂ :: legs, g => by
      have hrest := pauses_concat (g₂ :: legs) g
      rw [List.cons_append] at hrest
      rw [List.cons_append, List.cons_append, pauses, hrest, pauses, List.append_assoc,
        List.getLast?_cons_cons]

theorem pauses_none {legs : List Leg} {g : Leg} (hcourse : g.course? = none) :
    pauses (legs ++ [g]) = pauses legs := by
  rw [pauses_concat, hcourse]
  cases legs.getLast? <;> exact List.append_nil _

theorem pauses_some {legs : List Leg} {g₀ g : Leg} {c : ProbeCourse}
    (hcourse : g.course? = some c) :
    pauses (legs ++ [g₀] ++ [g]) = pauses (legs ++ [g₀]) ++ [g.time - g₀.time] := by
  rw [pauses_concat, hcourse, List.getLast?_concat]
  rfl

/-! ## On a journey -/

/-- A lookup that is called has not run. -/
theorem Trail.called_nil {l₀ l : Lookup} {legs : List Leg} (htrail : Trail l₀ legs l .called) :
    legs = [] := by
  generalize hplace : Place.called = place at htrail
  cases htrail with
  | called => rfl
  | leg => exact absurd hplace.symm (Leg.arrival_ne_called _)

/-- All attempts but the last have failed. -/
theorem Trail.allFail {l₀ l : Lookup} {legs : List Leg} {place : Place}
    (htrail : Trail l₀ legs l place) : AllFail (courses legs).dropLast := by
  have hbooks := htrail.books
  generalize courses legs = cs at hbooks ⊢
  generalize deeds legs = ds at hbooks
  have hdrop : ∀ {cs : List ProbeCourse}, AllFail cs → AllFail cs.dropLast :=
    fun hfail c hc => hfail c (List.mem_of_mem_dropLast hc)
  cases hbooks with
  | called => exact fun c hc => (List.not_mem_nil hc).elim
  | probing hfail | found hfail | faulted hfail => rwa [List.dropLast_concat]
  | backingOff hfail | cancelled hfail => exact hdrop hfail

/-- What the legs of a lookup have been like so far: it paused as its backoff says, and where it is
pausing, it has failed in the last leg. -/
structure Paused (l₀ : Lookup) (legs : List Leg) (place : Place) : Prop where
  before : pauses legs = (List.range ((courses legs).length - 1)).map l₀.backoff.pause
  pausing : ∀ n due, place = .asleep (.backingOff n) due →
    ∃ past g k, legs = past ++ [g] ∧ (courses legs).length = k + 1
      ∧ due = g.time + l₀.backoff.pause k

section

variable {l₀ : Lookup} {legs : List Leg} {s : Scene} {phase : Option LookupPhase} {wake : Wake}

/-- A leg in which an attempt fails begins a pause, the one of the number of failures. -/
theorem Leg.begins_pause {g : Leg} (htrail : Trail l₀ (legs ++ [g]) g.step.lookup g.arrival)
    (hfresh : l₀.retry = {}) (hbackoff : g.lookup.backoff = l₀.backoff)
    (hsome : courses (legs ++ [g]) ≠ [])
    (hcount : AllFail (courses (legs ++ [g])) → (courses (legs ++ [g])).length < UInt32.size)
    {n : UInt32} {due : Nat} (harrival : g.arrival = .asleep (.backingOff n) due) :
    ∃ k, (courses (legs ++ [g])).length = k + 1 ∧ due = g.time + l₀.backoff.pause k := by
  have hbooks := htrail.books
  rw [harrival] at hbooks
  rcases g.upshot_or_stop with ⟨s, hupshot⟩ | ⟨notes, -, -, hstep⟩
  · obtain ⟨k, hlength⟩ := Nat.exists_eq_succ_of_ne_zero (List.length_pos_iff.mpr hsome).ne'
    rw [Leg.arrival] at harrival
    generalize g.step.lookup = l at hupshot hbooks
    generalize g.step.next = next at hupshot harrival
    cases hupshot with
    | backsOff =>
        rw [Place.ofNext, Place.asleep.injEq, LookupPhase.backingOff.injEq] at harrival
        obtain ⟨rfl, rfl⟩ := harrival
        generalize hcs : courses (legs ++ [g]) = cs at hbooks hcount hlength
        generalize deeds (legs ++ [g]) = ds at hbooks
        generalize hl : { g.lookup with retry := g.lookup.retry.recordFailure.2 } = l at hbooks
        cases hbooks with
        | backingOff hfail =>
            have hless := hcount hfail
            rw [hlength] at hless
            -- The books say to what number the failure has been counted.
            have hretry : g.lookup.retry.recordFailure.2.attempt = UInt32.ofNat (k + 1) := by
              rw [counting_eq hfresh, hlength] at hl
              exact congrArg (fun l : Lookup => l.retry.attempt) hl
            have hpositive : UInt32.ofNat (k + 1) ≠ 0 := by
              intro hzero
              have hnat := congrArg UInt32.toNat hzero
              rw [UInt32.toNat_ofNat_of_lt' hless] at hnat
              cases hnat
            have hnumber : g.lookup.retry.recordFailure.1 = UInt32.ofNat (k + 1) :=
              (RetryCounter.recordFailure_fst (hretry ▸ hpositive)).trans hretry
            refine ⟨k, hlength, ?_⟩
            rw [Scheduler.dueIn_eq, hnumber, hbackoff]
            rfl
    | waits => cases harrival
    | finds | givesUp | faults => cases harrival
  · rw [Leg.arrival, hstep] at harrival
    cases harrival

/-- An attempt that begins after a pause begins when the pause is over. -/
theorem Paused.begins {w₀ : World} (hpaused : Paused l₀ legs s.place)
    (hjourney : Journey ⟨w₀, l₀, .called⟩ legs s) (hready : s.Ready phase wake)
    (hbegins : Begins phase wake) {c : ProbeCourse}
    (hcourse : (s.leg phase wake).course? = some c) :
    pauses (legs ++ [s.leg phase wake]) =
      (List.range (courses legs).length).map l₀.backoff.pause := by
  cases hready with
  | called hplace =>
      obtain rfl : legs = [] := (hplace ▸ hjourney.trail).called_nil
      rfl
  | token => cases hbegins with | backedOff hwake => exact absurd rfl hwake
  | @timer phase due hplace hdue =>
      cases hbegins with
      | @backedOff n _ _ =>
          obtain ⟨past, g, k, rfl, hlength, hover⟩ := hpaused.pausing n due hplace
          have hpauses := hpaused.before
          have htime : s.time = g.time + l₀.backoff.pause k :=
            hover ▸ Nat.le_antisymm (hjourney.punctual hplace) hdue
          have hlast : (s.leg (some (.backingOff n)) .timer).time - g.time =
              l₀.backoff.pause k := by
            rw [show (s.leg (some (.backingOff n)) .timer).time = _ from htime,
              Nat.add_sub_cancel_left]
          rw [hlength, Nat.add_sub_cancel] at hpauses
          rw [pauses_some hcourse, hpauses, hlast, hlength, List.range_succ, List.map_append,
            List.map_singleton]

/-- **A lookup pauses as its backoff says.** On every journey from a call with a counter that is
fresh, with fewer than `2 ^ 32` failures and whatever becomes of the token. -/
theorem journey_pauses {w₀ : World} (hjourney : Journey ⟨w₀, l₀, .called⟩ legs s)
    (hfresh : l₀.retry = {})
    (hcount : ∀ cs, cs <+: courses legs → AllFail cs → cs.length < UInt32.size) :
    Paused l₀ legs s.place := by
  induction hjourney with
  | here => exact ⟨rfl, fun _ _ hplace => by cases hplace⟩
  | passes _ _ ih => exact ih hcount
  | @runs legs s phase wake hjourney hready ih =>
      have hprefix : courses legs <+: courses (legs ++ [s.leg phase wake]) := by
        rw [courses_append]
        exact List.prefix_append _ _
      have hpaused := ih fun cs hcs => hcount cs (hcs.trans hprefix)
      have hpausing : courses (legs ++ [s.leg phase wake]) ≠ [] → ∀ n due,
          (s.ran phase wake).place = .asleep (.backingOff n) due →
          ∃ past g k, legs ++ [s.leg phase wake] = past ++ [g]
            ∧ (courses (legs ++ [s.leg phase wake])).length = k + 1
            ∧ due = g.time + l₀.backoff.pause k := by
        intro hsome n due harrival
        obtain ⟨k, hlength, hdue⟩ := Leg.begins_pause (hjourney.runs hready).trail hfresh
          hjourney.trail.alike.1.backoff hsome (hcount _ (List.prefix_refl _)) harrival
        exact ⟨legs, _, k, rfl, hlength, hdue⟩
      rcases (s.leg phase wake).step_cases with
        ⟨c, hbegins, -, hcourse, -⟩ | ⟨p, hphase, hcourse, -⟩ | ⟨told, -, -, hcourse, hstep⟩
      · have hcourses : courses (legs ++ [s.leg phase wake]) = courses legs ++ [c] := by
          rw [courses_append, courses_some hcourse]
        refine ⟨?_, hpausing (by rw [hcourses]; exact List.concat_ne_nil _ _)⟩
        rw [hpaused.begins hjourney hready hbegins hcourse, hcourses, List.length_append,
          List.length_singleton, Nat.add_sub_cancel]
      · have hcourses : courses (legs ++ [s.leg phase wake]) = courses legs := by
          rw [courses_append, courses_none hcourse, List.append_nil]
        refine ⟨?_, hpausing ?_⟩
        · rw [pauses_none hcourse, hcourses, hpaused.before]
        · -- A probe that goes on has begun.
          have honward : s.place.Onward (some (.probing p)) := by
            rw [← hphase]
            exact hready.onward
          obtain ⟨due, hplace⟩ := honward.asleep_of
          have hbooks := hjourney.trail.books
          rw [hplace] at hbooks
          rw [hcourses]
          generalize courses legs = cs at hbooks ⊢
          generalize deeds legs = ds at hbooks
          generalize s.lookup = l at hbooks
          cases hbooks with
          | probing => exact List.concat_ne_nil _ _
      · have hcourses : courses (legs ++ [s.leg phase wake]) = courses legs := by
          rw [courses_append, courses_none hcourse, List.append_nil]
        refine ⟨?_, fun n due harrival => ?_⟩
        · rw [pauses_none hcourse, hcourses, hpaused.before]
        · rw [Scene.ran, Leg.arrival, hstep] at harrival
          cases harrival

end

/-! ## Spaced attempts -/

/-- No pause is shorter than the base delay, or than the longest wait of the clock where that is
shorter, and none is shorter than one before it. -/
structure Spaced (b : Backoff) (ps : List Nat) : Prop where
  least : ∀ x ∈ ps, Nat.min b.baseDelayMs.toNat Scheduler.longestWait ≤ x
  rising : ps.Pairwise (· ≤ ·)

theorem ofNat_le_ofNat {i j : Nat} (hle : i ≤ j) (hlt : j < UInt32.size) :
    UInt32.ofNat i ≤ UInt32.ofNat j := by
  rw [UInt32.le_iff_toNat_le, UInt32.toNat_ofNat_of_lt' (Nat.lt_of_le_of_lt hle hlt),
    UInt32.toNat_ofNat_of_lt' hlt]
  exact hle

theorem spaced_range {b : Backoff} (hvalid : b.validate = .ok ())
    (hmax : b.maxDelayMs.toNat ≤ 2 ^ 53) {n : Nat} (hn : n < UInt32.size) :
    Spaced b ((List.range n).map b.pause) := by
  constructor
  · intro x hx
    obtain ⟨i, -, rfl⟩ := List.mem_map.mp hx
    exact min_le_min_right _ (Backoff.base_le_delayFor hvalid hmax _)
  · refine List.pairwise_map.mpr (List.pairwise_lt_range.imp_of_mem ?_)
    intro i j _ hj hlt
    have hnumber : j + 1 < UInt32.size := Nat.lt_of_le_of_lt (List.mem_range.mp hj) hn
    exact min_le_min_right _
      (Backoff.delayFor_mono b (ofNat_le_ofNat (Nat.succ_le_succ (Nat.le_of_lt hlt)) hnumber))

theorem kept_validate : Client.Kept fun c => c.backoff.validate = .ok () :=
  Client.kept_backoff fun _ hvalid => hvalid

theorem validate_client {ps₀ : List Passage} {w₀ : World} (hbefore : Interleaving {} ps₀ w₀) :
    ∀ c ∈ w₀.clients, c.backoff.validate = .ok () := by
  refine kept_validate.history hbefore.history fun c hc => ?_
  rw [Array.mem_singleton.mp hc]
  exact kept_validate.fresh

/-- **No client probes in a hot loop.** At every point that calls and tasks lead to, in any order,
every client has a backoff that validates, and a backoff that does not is refused and changes
nothing. Take a lookup that a client starts there, and any interleaving from the call on. The
attempts of the lookup are spaced by the backoff that the client has at the call: each pause between
two of them is at least the base delay or thirty years, the longest wait of the clock, and no
shorter than the pause before. This is for backoffs of at most `2 ^ 53` milliseconds and fewer than
`2 ^ 32` failures. -/
theorem pauses_spaced {ps₀ : List Passage} {w₀ : World} (hbefore : Interleaving {} ps₀ w₀) :
    (∀ c ∈ w₀.clients, c.backoff.validate = .ok ())
      ∧ (∀ (b : Backoff) (e : BackoffError), b.validate = .error e →
        w₀.perform (.set (.backoff b)) = (w₀, .refused (.configuration e.message)))
      ∧ ∀ (h : String) (token : Option String) (finished : Bool) (id : TaskId)
          (ps : List Passage) (w₁ w : World),
        w₀.perform (.discover h token) = (w₁, .lookupStarted finished) →
        w₁.handle? h = some (.lookup (.task id)) → Interleaving w₁ ps w →
        w₀.client.backoff.maxDelayMs.toNat ≤ 2 ^ 53 →
        (∀ cs, cs <+: courses (legsOf id ps) → AllFail cs → cs.length < UInt32.size) →
          Spaced w₀.client.backoff (pauses (legsOf id ps)) := by
  have hclients := validate_client hbefore
  refine ⟨hclients, fun b e hinvalid => ?_, ?_⟩
  · have hrefused : w₀.client.set (.backoff b) = .error (.configuration e.message) := by
      simp only [Client.set, Client.setBackoff, hinvalid]
    rw [World.perform_set, hrefused]
  · intro h token finished id ps w₁ w hcall hhandle hafter hmax hcount
    have hvacant := (World.vacant_concerns w₀.scheduler.tasks.size).interleaving hbefore
      fun _ => ⟨rfl, rfl⟩
    obtain ⟨l, hlookup, hattached⟩ := attached_of_discover hvacant hcall hhandle
    obtain ⟨hbackoff, hfresh⟩ : l.backoff = w₀.client.backoff ∧ l.retry = {} := by
      obtain ⟨credential, -, rfl⟩ := Client.lookup_ok hlookup
      exact ⟨rfl, rfl⟩
    obtain ⟨s, hjourney⟩ : ∃ s, Journey ⟨w₁, l, .called⟩ (legsOf id ps) s := by
      rcases projects_or_aborted hattached hafter with ⟨s, -, hprojects⟩ | ⟨-, hjourney⟩
      · exact ⟨s, hprojects.journey⟩
      · exact hjourney
    have hless : (courses (legsOf id ps)).length - 1 < UInt32.size := by
      rw [← List.length_dropLast]
      exact hcount _ (List.dropLast_prefix _) hjourney.trail.allFail
    rw [(journey_pauses hjourney hfresh hcount).before, hbackoff]
    exact spaced_range (World.getD_kept kept_validate hclients w₀.current) hmax hless

/-! A client whose lookup fails once and then finds three shards. -/

/-- The attempts of its lookup: the first is refused. -/
def refusedOnce : List ProbeCourse :=
  [{ query := .refusal (.discovery "busy") }, { query := .answer ⟨"wss://g", 3⟩ }]

/-- The world of a client with a backoff, before the lookup. -/
def unspaced (b : Backoff) : World where
  clients := #[{ credential := some ⟨"tok"⟩, backoff := b }]
  plane := { script := refusedOnce }

theorem interleaving_unspaced {b : Backoff} (hvalid : b.validate = .ok ()) :
    ∃ ps₀, Interleaving {} ps₀ (unspaced b) := by
  have hset : ({} : Client).set (.backoff b) = .ok { backoff := b } := by
    simp only [Client.set, Client.setBackoff, hvalid]
  have hcall : (World.perform {} (.set (.backoff b))).1 =
      ({} : World).setClient { backoff := b } := by
    rw [World.perform_set, show ({} : World).client.set _ = _ from hset]
  have hrun := Interleaving.start.call (s := .set (.backoff b)) (w := {}) id
  rw [hcall] at hrun
  exact ⟨_, (hrun.call (s := .set (.token "tok")) id).call (s := .answers refusedOnce) id⟩

/-- The world of the lookup, called. -/
def spacedCall (b : Backoff) : World := ((unspaced b).perform (.discover "d" none)).1

/-- The world of the lookup, after its first attempt. -/
def spacedFailure (b : Backoff) : World := ((spacedCall b).withQueue []).runTask 0 .started

/-- The world of the lookup, when its pause is over. -/
def spacedPause (b : Backoff) (time : Nat) : World :=
  { spacedFailure b with scheduler := (spacedFailure b).scheduler.moveTo time }

def spacedPassages (b : Backoff) (time : Nat) : List Passage :=
  [⟨spacedCall b, .surroundings, (spacedCall b).withQueue []⟩,
    ⟨(spacedCall b).withQueue [], .task 0 .started, spacedFailure b⟩,
    ⟨spacedFailure b, .surroundings, spacedPause b time⟩,
    ⟨spacedPause b time, .surroundings, (spacedPause b time).withQueue []⟩,
    ⟨(spacedPause b time).withQueue [], .task 0 .timer,
      ((spacedPause b time).withQueue []).runTask 0 .timer⟩]

theorem interleaving_spaced (b : Backoff) (time : Nat)
    (hcalled : (spacedCall b).scheduler.queue = [(0, .started)])
    (hidle : (spacedFailure b).scheduler.queue = [])
    (hfirst : ∀ s ∈ (spacedFailure b).scheduler.sleepers, time ≤ s.due)
    (hover : (spacedPause b time).scheduler.queue = [(0, .timer)]) :
    ∃ w, Interleaving (spacedCall b) (spacedPassages b time) w :=
  ⟨_, ((Interleaving.start.turn [] [] hcalled).clock hidle hfirst).turn [] [] hover⟩

theorem pauses_spaced_once :
    Spaced {} (pauses (legsOf 0 (spacedPassages {} 1000)))
      ∧ pauses (legsOf 0 (spacedPassages {} 1000)) = [1000] := by
  obtain ⟨ps₀, hbefore⟩ := interleaving_unspaced Backoff.validate_default
  obtain ⟨w, hafter⟩ := interleaving_spaced {} 1000 (by decide +kernel) (by decide +kernel)
    (by decide +kernel) (by decide +kernel)
  have hshort : (courses (legsOf 0 (spacedPassages {} 1000))).length = 2 := by decide +kernel
  refine ⟨(pauses_spaced hbefore).2.2 "d" none false 0 _ (spacedCall {}) w rfl rfl hafter
    (by decide) fun cs hcs _ => ?_, by decide +kernel⟩
  exact Nat.lt_of_le_of_lt hcs.length_le (hshort ▸ by decide)

/-- The clock cuts a pause of more than thirty years short. -/
theorem pause_below_base :
    ∃ (b : Backoff) (ps₀ ps : List Passage) (w : World), b.validate = .ok ()
      ∧ b.maxDelayMs.toNat ≤ 2 ^ 53 ∧ Interleaving {} ps₀ (unspaced b)
      ∧ (unspaced b).client.backoff = b
      ∧ (unspaced b).perform (.discover "d" none) = (spacedCall b, .lookupStarted false)
      ∧ Interleaving (spacedCall b) ps w
      ∧ ∃ x ∈ pauses (legsOf 0 ps), x < b.baseDelayMs.toNat := by
  let b : Backoff := { baseDelayMs := 1000000000000, maxDelayMs := 1000000000000 }
  have hunit : Binary64.zero.isUnit = true := by decide +kernel
  have hvalid : b.validate = .ok () :=
    Backoff.validate_eq_ok.mpr ⟨by decide, by decide, by decide, hunit⟩
  obtain ⟨ps₀, hbefore⟩ := interleaving_unspaced hvalid
  obtain ⟨w, hafter⟩ := interleaving_spaced b 946080000000 (by decide +kernel) (by decide +kernel)
    (by decide +kernel) (by decide +kernel)
  have hpauses : pauses (legsOf 0 (spacedPassages b 946080000000)) = [946080000000] := by
    decide +kernel
  refine ⟨b, ps₀, _, w, hvalid, by decide, hbefore, rfl, rfl, hafter, 946080000000, ?_, by decide⟩
  rw [hpauses]
  exact List.mem_singleton_self _

end Lookup

end GatewayClient
