import GatewayClient.Proofs.Scenario.Connection

/-!
# Histories without a shutdown

A shutdown aborts the tasks that have not ended, and nothing else does. So in a history throughout
which the clock runs a task that is there changes in its own passages only (`Passes.task_steady`),
and it can be followed without asking what happens around it. Nothing starts the clock again once it
was shut down: a scenario at whose end it runs has such a history (`steady_play`).
-/

namespace GatewayClient

/-- The clock runs after every passage. -/
def Steady (ps : List Passage) : Prop := ∀ p ∈ ps, p.after.scheduler.running = true

theorem steady_nil : Steady [] := fun _ hp => (List.not_mem_nil hp).elim

theorem steady_cons {p : Passage} {ps : List Passage} :
    Steady (p :: ps) ↔ p.after.scheduler.running = true ∧ Steady ps :=
  List.forall_mem_cons

theorem Steady.append {ps ps' : List Passage} (hps : Steady ps) (hps' : Steady ps') :
    Steady (ps ++ ps') := by
  intro p hp
  rcases List.mem_append.mp hp with hmem | hmem
  · exact hps p hmem
  · exact hps' p hmem

theorem Steady.of_append {ps ps' : List Passage} (h : Steady (ps ++ ps')) :
    Steady ps ∧ Steady ps' :=
  ⟨fun p hp => h p (List.mem_append_left _ hp), fun p hp => h p (List.mem_append_right _ hp)⟩

theorem steady_singleton {p : Passage} : Steady [p] ↔ p.after.scheduler.running = true := by
  simp [steady_cons, steady_nil]

namespace World

/-- If the clock runs in the world after, it ran in the one before, and the tasks of that one are as
they were. -/
def Retains (w w' : World) : Prop :=
  w'.scheduler.running = true →
    w.scheduler.running = true
      ∧ ∀ (id : TaskId) (task : Task), w.scheduler.tasks[id]? = some task →
        w'.scheduler.tasks[id]? = some task

theorem retains_of_eq {w w' : World} (hrunning : w'.scheduler.running = w.scheduler.running)
    (htasks : w'.scheduler.tasks = w.scheduler.tasks) : w.Retains w' := by
  intro hruns
  rw [hrunning] at hruns
  exact ⟨hruns, fun _ _ htask => htasks ▸ htask⟩

theorem retains_frame : Frame Retains where
  trans := by
    intro w w' w'' h h' hruns
    obtain ⟨hruns', hkept'⟩ := h' hruns
    obtain ⟨hruns₀, hkept⟩ := h hruns'
    exact ⟨hruns₀, fun id task htask => hkept' id task (hkept id task htask)⟩
  aside := by
    intro w w' haside
    apply retains_of_eq
    · rw [haside.scheduler]
    · rw [haside.scheduler]
  spawn := by
    intro work w w' id₀ _ hspawn hruns
    rw [(spawn_eq hspawn).2.2] at hruns ⊢
    refine ⟨hruns, fun id task htask => ?_⟩
    have hlt := (Array.getElem?_eq_some_iff.mp htask).1
    dsimp only
    rw [Array.getElem?_push_lt hlt]
    exact Array.getElem?_eq_getElem hlt ▸ htask
  cancel := fun _ _ => retains_of_eq rfl rfl
  shutDown := by
    intro w hruns
    cases hruns

theorem perform_retains (w : World) {s : Step} (hwaits : ¬ s.Waits) :
    w.Retains (w.perform s).1 := by
  by_cases hconfigures : s.Configures
  · have hscheduler := configure_scheduler w hconfigures
    exact retains_of_eq (by rw [hscheduler]) (by rw [hscheduler])
  · exact retains_frame.perform w hwaits hconfigures

/-- While the clock runs, a task that is there stays as it is in the passages of others. -/
theorem Passes.task_steady {w w' : World} {mover : Mover} {id : TaskId} {task : Task}
    (hpasses : w.Passes mover w') (hother : ∀ wake, mover ≠ .task id wake)
    (hruns : w'.scheduler.running = true) (htask : w.scheduler.tasks[id]? = some task) :
    w'.scheduler.tasks[id]? = some task := by
  cases hpasses with
  | call hwaits => exact (perform_retains w hwaits hruns).2 id task htask
  | task id' wake =>
      have hne : id' ≠ id := fun heq => hother wake (heq ▸ rfl)
      rw [runTask_other hne]
      exact htask
  | aside hbeside =>
      rw [hbeside.tasks]
      exact htask

/-! ## What has ended -/

/-- A task that has ended stays so, whatever happens. -/
theorem Passes.ended {w w' : World} {mover : Mover} (hpasses : w.Passes mover w') {id : TaskId}
    {ending : Ending} (hended : w.scheduler.tasks[id]? = some (.ended ending)) :
    w'.scheduler.tasks[id]? = some (.ended ending) := by
  by_cases hown : ∃ wake, mover = .task id wake
  · obtain ⟨wake, rfl⟩ := hown
    have hidle : ∀ work, w.scheduler.tasks[id]? ≠ some (.live work) := by
      intro work hlive
      rw [hended] at hlive
      cases hlive
    obtain rfl : w' = w.runTask id wake := by cases hpasses; rfl
    rw [(runTask_idle wake hidle).2]
    exact hended
  · rcases hpasses.task_cases (fun wake heq => hown ⟨wake, heq⟩) hended with
      hstays | ⟨⟨work, hlive⟩, -⟩
    · exact hstays
    · cases hlive

/-- No task aborts itself. -/
theorem run_ne_aborted (work : Work) (wake : Wake) (w : World) :
    (w.run work wake).2 ≠ .ended .aborted := by
  have hopen : ∀ number q response w₁,
      (openSession number q response w₁).2 ≠ .ended .aborted := by
    intro number q response w₁
    cases response <;> exact nofun
  cases work with
  | connect q =>
      show (w.connect q).2 ≠ _
      unfold connect
      dsimp only
      split
      · exact nofun
      · exact hopen _ _ _ _
  | opening number q response => exact hopen number q response w
  | lookup k l phase =>
      show (w.runLookup k l phase wake).2 ≠ _
      unfold runLookup
      dsimp only
      split <;> exact nofun
  | cancelAfter ms token => exact nofun
  | cancelNow token => exact nofun

/-- While the clock runs, no task is aborted. -/
theorem History.not_aborted {w w' : World} {ps : List Passage} {id : TaskId} {task : Task}
    (hhistory : w.History ps w') (hsteady : Steady ps)
    (htask : w.scheduler.tasks[id]? = some task) (hgoes : task ≠ .ended .aborted) :
    w'.scheduler.tasks[id]? ≠ some (.ended .aborted) := by
  have hstands : ∃ task', w'.scheduler.tasks[id]? = some task' ∧ task' ≠ .ended .aborted := by
    induction hhistory with
    | start => exact ⟨task, htask, hgoes⟩
    | @passage ps w₁ w₂ mover _ hpasses ih =>
        obtain ⟨hbefore, hlast⟩ := hsteady.of_append
        obtain ⟨task', htask', hgoes'⟩ := ih hbefore
        by_cases hown : ∃ wake, mover = .task id wake
        · obtain ⟨wake, rfl⟩ := hown
          obtain rfl : w₂ = w₁.runTask id wake := by cases hpasses; rfl
          cases task' with
          | ended ending => exact ⟨_, (Passes.task id wake).ended htask', hgoes'⟩
          | live work =>
              refine ⟨_, (runTask_live htask' wake).2, fun haborted => ?_⟩
              refine run_ne_aborted work wake w₁ ?_
              generalize (w₁.run work wake).2 = progress at haborted
              cases progress with
              | asleep => cases haborted
              | ended ending => cases haborted; rfl
        · have hruns := steady_singleton.mp hlast
          exact ⟨task', hpasses.task_steady (fun wake heq => hown ⟨wake, heq⟩) hruns htask', hgoes'⟩
  obtain ⟨task', htask', hgoes'⟩ := hstands
  rw [htask']
  exact fun heq => hgoes' (Option.some.inj heq)

/-- What a handle resolves to is there for good. -/
theorem History.result_lasts {w w' : World} {ps : List Passage} (hhistory : w.History ps w')
    {p : Pending} {result : Except ClientError Finding} (hresult : w.result? p = some result) :
    w'.result? p = some result := by
  cases p with
  | failed e => exact hresult
  | task id =>
      obtain ⟨ending, hending, rfl⟩ := Option.map_eq_some_iff.mp hresult
      have hended : w.scheduler.tasks[id]? = some (.ended ending) := by
        unfold Scheduler.ending? at hending
        split at hending
        · next htask =>
          cases hending
          exact htask
        · cases hending
      have hended' : w'.scheduler.tasks[id]? = some (.ended ending) := by
        clear hending hresult
        induction hhistory with
        | start => exact hended
        | passage _ hpasses ih => exact hpasses.ended ih
      exact result?_ended hended'

/-! ## Every scenario that was not shut down has such a history -/

/-- If the clock runs in the world after, it ran all the way there. -/
def SteadySpans (w w' : World) : Prop :=
  w'.scheduler.running = true →
    w.scheduler.running = true ∧ ∃ ps, w.History ps w' ∧ Steady ps

theorem Passes.steadySpans {w w' : World} {mover : Mover} (hpasses : w.Passes mover w')
    (hruns : w'.scheduler.running = true → w.scheduler.running = true) : w.SteadySpans w' := by
  intro hruns'
  exact ⟨hruns hruns', _, History.start.passage hpasses, steady_singleton.mpr hruns'⟩

theorem SteadySpans.trans {w w' w'' : World} (h : w.SteadySpans w') (h' : w'.SteadySpans w'') :
    w.SteadySpans w'' := by
  intro hruns
  obtain ⟨hruns', ps', hhistory', hsteady'⟩ := h' hruns
  obtain ⟨hruns₀, ps, hhistory, hsteady⟩ := h hruns'
  exact ⟨hruns₀, ps ++ ps', hhistory.append hhistory', hsteady.append hsteady'⟩

theorem steady_covers : Covers SteadySpans where
  trans := SteadySpans.trans
  aside := by
    intro w w' haside
    refine Passes.steadySpans (.aside ⟨haside.toSameClients, by rw [haside.scheduler]⟩) ?_
    rw [haside.scheduler]
    exact id
  call := by
    intro w s hwaits
    exact (Passes.call hwaits).steadySpans fun hruns => (perform_retains w hwaits hruns).1
  turn := by
    intro w id wake rest _
    have hpop : w.Beside { w with scheduler := { w.scheduler with queue := rest } } :=
      ⟨⟨rfl, rfl⟩, rfl⟩
    have hrun := (runTask_holds id wake
      { w with scheduler := { w.scheduler with queue := rest } }).running
    refine ((Passes.aside hpop).steadySpans fun h => h).trans
      ((Passes.task id wake).steadySpans ?_)
    rw [hrun]
    exact fun h => h
  clock := by
    intro w time _ _
    have hmoved : w.Beside { w with scheduler := w.scheduler.moveTo time } := ⟨⟨rfl, rfl⟩, rfl⟩
    exact (Passes.aside hmoved).steadySpans fun h => h

/-- Waiting shuts nothing down. -/
theorem await_running : ∀ (patience : Nat) (fg : Foreground) (w : World),
    (w.await patience fg).1.scheduler.running = w.scheduler.running
  | 0, _, _ => rfl
  | patience + 1, fg, w => by
      have hattend := congrArg Scheduler.running (attend_aside fg w).scheduler
      unfold await
      rcases hseen : w.attend fg with ⟨w₁, fg₁ | a⟩
      · rw [hseen] at hattend
        dsimp only
        split
        · split
          · exact hattend
          · exact (await_running patience fg₁ _).trans hattend
        · exact (await_running patience fg₁ _).trans ((drain_holds _ w₁).running.trans hattend)
      · rw [hseen] at hattend
        exact hattend

theorem steady_play (steps : List Step) (w : World) : w.SteadySpans (w.play steps).1 :=
  steady_covers.play steps w

end World

end GatewayClient
