import GatewayClient.Proofs.Lookup.Trail
import GatewayClient.Scenario.Step

/-!
# Waiting in a quiet world

In a quiet world nothing is going on but the foreground. Then a wait of the foreground is one round
of `World.await` in which the clock moves to its end (`await_sleep`), and so the probe of a
foreground comes to its end in at most four rounds, at the time and with the deeds that its fate
tells (`Probing.proceeds`). The probe may stand alone or belong to a lookup; what the two have in
common is a parameter, `Probing`.
-/

namespace GatewayClient

theorem ControlPlane.tally_append (p : ControlPlane) (deeds deeds' : List ProbeDeed) :
    p.tally (deeds ++ deeds') = (p.tally deeds).tally deeds' := by
  simp only [tally, List.count_append, Nat.add_assoc]

namespace World

/-- The clock runs, and nothing is going on but the foreground. -/
structure Quiet (w : World) : Prop where
  running : w.scheduler.running = true
  queue : w.scheduler.queue = []
  sleepers : w.scheduler.sleepers = []

/-- The world after a probe did something with its session and some time has passed. -/
def probed (deeds : List ProbeDeed) (ms : Nat) (w : World) : World :=
  { w with
    plane := w.plane.tally deeds
    scheduler := { w.scheduler with now := w.scheduler.now + ms } }

theorem probed_probed (deeds deeds' : List ProbeDeed) (ms ms' : Nat) (w : World) :
    (w.probed deeds ms).probed deeds' ms' = w.probed (deeds ++ deeds') (ms + ms') := by
  simp only [probed, ControlPlane.tally_append, Nat.add_assoc]

theorem Quiet.probed {w : World} (hquiet : w.Quiet) (deeds : List ProbeDeed) (ms : Nat) :
    (w.probed deeds ms).Quiet :=
  ⟨hquiet.running, hquiet.queue, hquiet.sleepers⟩

/-! ## One round -/

theorem attend_resolve {pending : List Pending} {w : World} :
    w.attend (.resolve pending) =
      (w, if ∀ p ∈ pending, w.isFinished p then .inr .resolved else .inl (.resolve pending)) := by
  simp only [attend, List.all_eq_true]
  split <;> rfl

theorem await_done {fg : Foreground} {w w₁ : World} {a : Attained}
    (hattend : w.attend fg = (w₁, .inr a)) (fuel : Nat) : w.await (fuel + 1) fg = (w₁, a) := by
  rw [await, hattend]

theorem await_clock {fg fg₁ : Foreground} {w w₁ : World} {time : Nat}
    (hattend : w.attend fg = (w₁, .inl fg₁)) (hqueue : w₁.scheduler.queue = [])
    (hnext : w₁.nextDue? fg₁ = some time) (fuel : Nat) :
    w.await (fuel + 1) fg =
      World.await fuel fg₁ { w₁ with scheduler := w₁.scheduler.moveTo time } := by
  rw [await, hattend]
  dsimp only
  rw [if_pos (List.isEmpty_iff.mpr hqueue), hnext]

theorem await_drain {fg fg₁ : Foreground} {w w₁ : World} (hattend : w.attend fg = (w₁, .inl fg₁))
    (hqueue : w₁.scheduler.queue ≠ []) (fuel : Nat) :
    w.await (fuel + 1) fg =
      (w₁.drain (2 * w₁.scheduler.tasks.size + w₁.scheduler.queue.length)).await fuel fg₁ := by
  rw [await, hattend]
  dsimp only
  rw [if_neg fun hempty => hqueue (List.isEmpty_iff.mp hempty)]

/-- In a quiet world the clock moves to the end of the wait of the foreground. -/
theorem await_sleep {fg fg₁ : Foreground} {w w₁ : World} (ms : Nat)
    (hattend : w.attend fg = (w₁, .inl fg₁)) (hquiet : w₁.Quiet)
    (hdue : fg₁.due? = some (w₁.scheduler.dueIn ms)) (fuel : Nat) :
    w.await (fuel + 1) fg = (w₁.probed [] (Scheduler.span (some ms))).await fuel fg₁ := by
  have hnext : w₁.nextDue? fg₁ = some (w₁.scheduler.dueIn ms) := by
    rw [nextDue?, Scheduler.nextDue?, hdue, hquiet.sleepers]
    rfl
  have hlater : Nat.max w₁.scheduler.now (w₁.scheduler.dueIn ms) =
      w₁.scheduler.now + Scheduler.span (some ms) :=
    Nat.max_eq_right (Nat.le_add_right _ _)
  have hmoved : w₁.scheduler.moveTo (w₁.scheduler.dueIn ms) =
      { w₁.scheduler with now := w₁.scheduler.now + Scheduler.span (some ms) } := by
    simp only [Scheduler.moveTo, hlater, hquiet.sleepers, List.partition_eq_filter_filter,
      List.filter_nil, List.map_nil, List.append_nil]
  rw [await_clock hattend hquiet.queue hnext, hmoved]
  rfl

/-! ## The probe of the foreground -/

/-- A foreground goes on with its probe: after a run of the probe it sleeps in the phase of the
probe, and when the wait is over the probe goes on from there. -/
structure Probing (goOn : ProbeStep → World → World × (Foreground ⊕ Attained))
    (asleep : ProbePhase → Nat → Foreground) : Prop where
  due : ∀ phase due, (asleep phase due).due? = some due
  waits : ∀ {s : ProbeStep} {w : World} {phase : ProbePhase} {ms : Nat},
    w.scheduler.running = true → s.next = .wait phase ms →
      goOn s w = (w.probed s.deeds 0, .inl (asleep phase (w.scheduler.dueIn ms)))
  resumes : ∀ {phase : ProbePhase} {due : Nat} {w : World}, due ≤ w.scheduler.now →
    w.attend (asleep phase due) = goOn (Probe.resume phase) w

/-- The end of a probe is reached, with what was to come of it up to there behind. -/
theorem Probing.proceeds {goOn : ProbeStep → World → World × (Foreground ⊕ Attained)}
    {asleep : ProbePhase → Nat → Foreground} (hprobing : Probing goOn asleep) :
    ∀ (rank : Nat) (s : ProbeStep) (fg : Foreground) (w w₁ : World),
      (∀ phase ms, s.next = .wait phase ms → phase.rank < rank) →
      w.attend fg = goOn s w₁ → w₁.Quiet →
      ∃ (s' : ProbeStep) (fg' : Foreground) (w' w₁' : World) (past : List ProbeDeed) (ms : Nat)
          (rounds : Nat),
        (∀ phase ms, s'.next ≠ .wait phase ms) ∧ rounds ≤ rank
        ∧ s.fate = ⟨past ++ s'.deeds, ms, s'.fate.ending⟩
        ∧ (∀ fuel, w.await (fuel + rounds) fg = w'.await fuel fg')
        ∧ w'.attend fg' = goOn s' w₁' ∧ w₁' = w₁.probed past ms := by
  intro rank
  induction rank with
  | zero =>
      intro s fg w w₁ hrank hattend _
      refine ⟨s, fg, w, w₁, [], 0, 0, fun phase ms hnext => ?_, Nat.le_refl 0, ?_, fun _ => rfl,
        hattend, rfl⟩
      · exact absurd (hrank phase ms hnext) (Nat.not_lt_zero _)
      · cases hnext : s.next with
        | wait phase ms => exact absurd (hrank phase ms hnext) (Nat.not_lt_zero _)
        | settled answer => simp only [ProbeStep.fate, hnext, List.nil_append]
        | faulted f => simp only [ProbeStep.fate, hnext, List.nil_append]
  | succ rank ih =>
      intro s fg w w₁ hrank hattend hquiet
      cases hnext : s.next with
      | settled answer =>
          refine ⟨s, fg, w, w₁, [], 0, 0, fun phase ms h => ?_, Nat.zero_le _, ?_, fun _ => rfl,
            hattend, rfl⟩
          · rw [hnext] at h; cases h
          · simp only [ProbeStep.fate, hnext, List.nil_append]
      | faulted f =>
          refine ⟨s, fg, w, w₁, [], 0, 0, fun phase ms h => ?_, Nat.zero_le _, ?_, fun _ => rfl,
            hattend, rfl⟩
          · rw [hnext] at h; cases h
          · simp only [ProbeStep.fate, hnext, List.nil_append]
      | wait phase ms =>
          -- One round takes the foreground to the end of this wait; the rest is the phase's fate.
          rw [hprobing.waits hquiet.running hnext] at hattend
          have hsleep := await_sleep ms hattend (hquiet.probed s.deeds 0)
            (hprobing.due phase _)
          rw [probed_probed, List.append_nil, Nat.zero_add] at hsleep
          obtain ⟨s', fg', w', w₁', past, ms', rounds, hend, hrounds, hfate, hawait, hattend',
              hw₁'⟩ :=
            ih (Probe.resume phase) (asleep phase (w₁.scheduler.dueIn ms))
              (w₁.probed s.deeds (Scheduler.span (some ms)))
              (w₁.probed s.deeds (Scheduler.span (some ms)))
              (fun phase' ms' hresume => Nat.lt_of_lt_of_le (Probe.rank_resume hresume)
                (Nat.le_of_lt_succ (hrank phase ms hnext)))
              (hprobing.resumes (Nat.le_refl _)) (hquiet.probed ..)
          rw [Probe.fate_resume] at hfate
          refine ⟨s', fg', w', w₁', s.deeds ++ past, Scheduler.span (some ms) + ms', rounds + 1,
            hend, Nat.succ_le_succ hrounds, ?_, fun fuel => ?_, hattend', ?_⟩
          · simp only [ProbeStep.fate, hnext, hfate, List.append_assoc]
          · rw [← Nat.add_assoc, hsleep, hawait]
          · rw [hw₁', probed_probed]

end World

end GatewayClient
