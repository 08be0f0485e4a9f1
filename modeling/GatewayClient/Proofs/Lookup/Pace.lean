import GatewayClient.Proofs.Lookup.Seeking
import GatewayClient.Proofs.Number.Rounding
import GatewayClient.Proofs.Scenario.Accounted
import GatewayClient.Proofs.Scenario.Kept

/-!
# Backoffs take time

A client refuses a backoff that describes no wait, and one that it accepts waits for at least a
millisecond after every failed attempt (`Backoff.paced_of_validate`). So whatever has been called
and whatever has run, every client has such a backoff, and every lookup has taken such a backoff
along (`World.Interleaving.paced`): no lookup fails again and again at one point of time.
-/

namespace GatewayClient

/-! ## Waits -/

namespace Backoff

/-- Every wait takes time. -/
def Paced (b : Backoff) : Prop := ∀ n, 1 ≤ b.delayFor n

theorem one_le_cappedDelay (base max : UInt64) (attempt : UInt32) :
    1 ≤ cappedDelay base max attempt := Nat.le_max_right _ _

theorem one_le_delayLimit : 1 ≤ delayLimit := by decide

/-- Headroom makes no wait shorter than a millisecond. -/
theorem one_le_withHeadroom {delay : Nat} {jitter : Binary64} {j : Magnitude} (hdelay : 1 ≤ delay)
    (hj : jitter.clampUnit = some j) : 1 ≤ withHeadroom delay jitter := by
  unfold withHeadroom
  rw [hj]
  dsimp only
  split
  · next s hstretched =>
    obtain ⟨d, hd, hrest⟩ := Option.bind_eq_some_iff.mp hstretched
    obtain ⟨f, hf, hmul⟩ := Option.bind_eq_some_iff.mp hrest
    have hdOne := Magnitude.oneLe_nearest (Nat.one_pos) hdelay hd
    have hfOne := Magnitude.oneLe_add Magnitude.oneLe_one hf
    exact Nat.le_min.mpr
      ⟨Magnitude.one_le_round (Magnitude.oneLe_mul hdOne hfOne hmul), one_le_delayLimit⟩
  · exact one_le_delayLimit

theorem paced_of_ne_nan {b : Backoff} (hnumber : b.jitterFactor ≠ .nan) : b.Paced := by
  intro n
  obtain ⟨j, hj⟩ := Binary64.exists_clampUnit hnumber
  exact one_le_withHeadroom (one_le_cappedDelay ..) hj

theorem paced_of_validate {b : Backoff} (hvalid : b.validate = .ok ()) : b.Paced := by
  obtain ⟨-, -, -, hunit⟩ := validate_eq_ok.mp hvalid
  refine paced_of_ne_nan fun hnan => ?_
  rw [hnan] at hunit
  cases hunit

end Backoff

/-! ## In every interleaving -/

namespace World

/-- The backoffs of the clients, and of the lookups that go on, take time. -/
structure Paced (w : World) : Prop where
  clients : ∀ c ∈ w.clients, c.backoff.Paced
  lookups : ∀ (id : TaskId) (k : ClientId) (l : Lookup) (phase : Option LookupPhase),
    w.scheduler.tasks[id]? = some (.live (.lookup k l phase)) → l.backoff.Paced

variable {w w' : World}

theorem kept_paced : Client.Kept fun c => c.backoff.Paced :=
  Client.kept_backoff fun _ => Backoff.paced_of_validate

theorem paced_frame : Frame fun w w' => w.Paced → w'.Paced where
  trans := fun h h' hpaced => h' (h hpaced)
  aside := by
    intro w w' haside hpaced
    exact ⟨haside.clients ▸ hpaced.clients, haside.scheduler ▸ hpaced.lookups⟩
  spawn := by
    intro work w w' id hstarts hspawn hpaced
    obtain ⟨hsame, -, hscheduler⟩ := spawn_eq hspawn
    refine ⟨hsame.clients ▸ hpaced.clients, fun id k l phase htask => ?_⟩
    rw [hscheduler, Array.getElem?_push] at htask
    split at htask
    · cases htask
      cases hstarts with
      | lookup hlookup =>
          obtain ⟨credential, -, rfl⟩ := Client.lookup_ok hlookup
          exact getD_kept kept_paced hpaced.clients w.current
    · exact hpaced.lookups id k l phase htask
  cancel := fun _ _ hpaced => ⟨hpaced.clients, hpaced.lookups⟩
  shutDown := by
    intro w hpaced
    refine ⟨hpaced.clients, fun id k l phase htask => ?_⟩
    cases hbefore : w.scheduler.tasks[id]? with
    | none => simp [Scheduler.shutDown, hbefore] at htask
    | some task =>
        cases task with
        | live work => rw [Scheduler.shutDown_live hbefore] at htask; cases htask
        | ended ending => rw [Scheduler.shutDown_ended hbefore] at htask; cases htask

theorem paced_call (w : World) {s : Step} (hwaits : ¬ s.Waits) (hpaced : w.Paced) :
    (w.perform s).1.Paced := by
  refine ⟨perform_kept kept_paced w hwaits hpaced.clients, ?_⟩
  by_cases hconfigures : s.Configures
  · rw [configure_scheduler w hconfigures]
    exact hpaced.lookups
  · exact (paced_frame.perform w hwaits hconfigures hpaced).lookups

/-- What a run leaves of a task is a lookup only if the task was one. -/
theorem run_ne_lookup {work : Work} (hwork : ∀ k l phase, work ≠ .lookup k l phase) (wake : Wake)
    (w : World) (k : ClientId) (l : Lookup) (phase : Option LookupPhase) :
    (w.run work wake).2.task ≠ .live (.lookup k l phase) := by
  cases work with
  | lookup k l phase => exact absurd rfl (hwork k l phase)
  | opening number q response =>
      obtain ⟨ending, hended, -⟩ := openSession_ended number q response w
      intro heq
      rw [run, hended] at heq
      cases heq
  | cancelAfter => exact nofun
  | cancelNow => exact nofun
  | connect q =>
      have hopened := (connect_opened q w).2
      intro heq
      rw [run] at heq
      generalize (w.connect q).2 = progress at hopened heq
      cases hopened <;> cases heq

/-- What a run leaves of a lookup has its backoff. -/
theorem runLookup_backoff {k k' : ClientId} {l l' : Lookup} {phase phase' : Option LookupPhase}
    {wake : Wake} {w : World}
    (htask : (w.runLookup k l phase wake).2.task = .live (.lookup k' l' phase')) :
    l'.backoff = l.backoff := by
  have halike := Lookup.Leg.step_lookup ⟨w, l, phase, wake⟩
  unfold runLookup at htask
  dsimp only at htask
  split at htask <;> cases htask
  exact halike.backoff

/-- A task that lives has its turn. -/
theorem paced_turn {id : TaskId} {work : Work} (htask : w.scheduler.tasks[id]? = some (.live work))
    (wake : Wake) (hpaced : w.Paced) : (w.runTask id wake).Paced := by
  constructor
  · exact runTask_kept kept_paced id wake hpaced.clients
  · intro id' k l phase htask'
    rw [runTask_scheduler htask, Scheduler.tasks_settle, run_tasks,
      Array.getElem?_setIfInBounds] at htask'
    split at htask'
    · split at htask'
      · have hleft := Option.some.inj htask'
        by_cases hwork : ∃ k l phase, work = .lookup k l phase
        · obtain ⟨k₀, l₀, phase₀, rfl⟩ := hwork
          rw [runLookup_backoff hleft]
          exact hpaced.lookups id k₀ l₀ phase₀ htask
        · exact absurd hleft
            (run_ne_lookup (fun k l phase heq => hwork ⟨k, l, phase, heq⟩) wake w k l phase)
      · cases htask'
    · exact hpaced.lookups id' k l phase htask'

theorem paced_runTask (id : TaskId) (wake : Wake) (hpaced : w.Paced) :
    (w.runTask id wake).Paced := by
  by_cases hlives : ∃ work, w.scheduler.tasks[id]? = some (.live work)
  · obtain ⟨work, htask⟩ := hlives
    exact paced_turn htask wake hpaced
  · rw [(runTask_idle wake fun work hlive => hlives ⟨work, hlive⟩).2]
    exact hpaced

/-- Whatever is called and whatever runs. -/
theorem Interleaving.paced {ps : List Passage} (hrun : w.Interleaving ps w') (hpaced : w.Paced) :
    w'.Paced := by
  induction hrun with
  | start => exact hpaced
  | call _ hwaits ih => exact paced_call _ hwaits ih
  | aside _ haside ih => exact paced_frame.aside haside ih
  | turn pre post _ _ ih => exact paced_runTask _ _ ⟨ih.clients, ih.lookups⟩
  | clock _ _ _ ih => exact ⟨ih.clients, ih.lookups⟩

theorem paced_fresh : Paced {} := by
  refine ⟨fun c hc => ?_, fun id k l phase htask => ?_⟩
  · obtain rfl := Array.mem_singleton.mp hc
    exact kept_paced.fresh
  · cases htask

end World

end GatewayClient
