import GatewayClient.Proofs.Scenario.Clock
import GatewayClient.Proofs.Scenario.Numbering

/-!
# The history of a world

A run tells what its moves wrote; a history tells the worlds before and after each of them, and who
made it. In a history the surroundings leave the tasks alone, so that a task can be followed: a
task that is there changes only in its own passages, save that a shutdown aborts it
(`Passes.task_cases`). As in a run, tasks may be run at any time and for any reason. Every scenario
has a history (`spans_play`).
-/

namespace GatewayClient

/-- Who makes a passage. -/
inductive Mover
  | caller (s : Step)
  | task (id : TaskId) (wake : Wake)
  | surroundings

structure Passage where
  before : World
  mover : Mover
  after : World

namespace Scheduler

theorem shutDown_live {r : Scheduler} {id : TaskId} {work : Work}
    (htask : r.tasks[id]? = some (.live work)) :
    r.shutDown.tasks[id]? = some (.ended .aborted) := by
  simp only [shutDown, Array.getElem?_map, htask, Option.map_some]

theorem shutDown_ended {r : Scheduler} {id : TaskId} {ending : Ending}
    (htask : r.tasks[id]? = some (.ended ending)) :
    r.shutDown.tasks[id]? = some (.ended ending) := by
  simp only [shutDown, Array.getElem?_map, htask, Option.map_some]

end Scheduler

namespace World

/-- Clients and tasks are as they were. -/
structure Beside (w w' : World) : Prop extends SameClients w w' where
  tasks : w'.scheduler.tasks = w.scheduler.tasks

inductive Passes (w : World) : Mover → World → Prop
  | call {s : Step} : ¬ s.Waits → Passes w (.caller s) (w.perform s).1
  | task (id : TaskId) (wake : Wake) : Passes w (.task id wake) (w.runTask id wake)
  | aside {w' : World} : w.Beside w' → Passes w .surroundings w'

/-- The passages from one world to another. -/
inductive History (w : World) : List Passage → World → Prop
  | start : History w [] w
  | passage {ps : List Passage} {w' w'' : World} {mover : Mover} :
      History w ps w' → w'.Passes mover w'' → History w (ps ++ [⟨w', mover, w''⟩]) w''

theorem History.append {w w' w'' : World} {ps ps' : List Passage} (hhistory : w.History ps w')
    (hhistory' : w'.History ps' w'') : w.History (ps ++ ps') w'' := by
  induction hhistory' with
  | start => rw [List.append_nil]; exact hhistory
  | passage _ hpasses ih => rw [← List.append_assoc]; exact ih.passage hpasses

/-! ## Every scenario has a history -/

/-- Some history leads from one world to another. -/
def Spans (w w' : World) : Prop := ∃ ps, w.History ps w'

theorem Passes.spans {w w' : World} {mover : Mover} (hpasses : w.Passes mover w') : w.Spans w' :=
  ⟨_, History.start.passage hpasses⟩

theorem spans_covers : Covers Spans where
  trans := fun ⟨ps, hhistory⟩ ⟨ps', hhistory'⟩ => ⟨ps ++ ps', hhistory.append hhistory'⟩
  aside := fun haside => (Passes.aside ⟨haside.toSameClients, by rw [haside.scheduler]⟩).spans
  call := fun hwaits => (Passes.call hwaits).spans
  turn := by
    intro w id wake rest _
    have hpop : w.Beside { w with scheduler := { w.scheduler with queue := rest } } :=
      ⟨⟨rfl, rfl⟩, rfl⟩
    exact ⟨_, (History.start.passage (.aside hpop)).passage (.task id wake)⟩
  clock := by
    intro w time _ _
    have hmoved : w.Beside { w with scheduler := w.scheduler.moveTo time } := ⟨⟨rfl, rfl⟩, rfl⟩
    exact (Passes.aside hmoved).spans

theorem spans_play (steps : List Step) (w : World) : w.Spans (w.play steps).1 :=
  spans_covers.play steps w

/-! ## What becomes of tasks and clients -/

/-- Tasks that were there are as they were or have been aborted. -/
def Keeps (w w' : World) : Prop :=
  ∀ (id : TaskId) (task : Task), w.scheduler.tasks[id]? = some task →
    w'.scheduler.tasks[id]? = some task
      ∨ (∃ work, task = .live work) ∧ w'.scheduler.tasks[id]? = some (.ended .aborted)

theorem keeps_of_eq {w w' : World} (htasks : w'.scheduler.tasks = w.scheduler.tasks) :
    w.Keeps w' := fun _ _ htask => .inl (htasks ▸ htask)

theorem keeps_frame : Frame Keeps where
  trans := by
    intro w w' w'' h h' id task htask
    rcases h id task htask with hsame | ⟨hlive, haborted⟩
    · exact h' id task hsame
    · rcases h' id _ haborted with haborted' | ⟨⟨work, heq⟩, -⟩
      · exact .inr ⟨hlive, haborted'⟩
      · cases heq
  aside := fun haside => keeps_of_eq (by rw [haside.scheduler])
  spawn := by
    intro work w w' id₀ _ hspawn id task htask
    have hlt := (Array.getElem?_eq_some_iff.mp htask).1
    rw [(spawn_eq hspawn).2.2]
    dsimp only
    rw [Array.getElem?_push_lt hlt]
    exact .inl (Array.getElem?_eq_getElem hlt ▸ htask)
  cancel := fun _ _ => keeps_of_eq rfl
  shutDown := by
    intro w id task htask
    cases task with
    | live work => exact .inr ⟨⟨work, rfl⟩, Scheduler.shutDown_live htask⟩
    | ended ending => exact .inl (Scheduler.shutDown_ended htask)

theorem perform_keeps (w : World) {s : Step} (hwaits : ¬ s.Waits) : w.Keeps (w.perform s).1 := by
  by_cases hconfigures : s.Configures
  · exact keeps_of_eq (by rw [configure_scheduler w hconfigures])
  · exact keeps_frame.perform w hwaits hconfigures

theorem runTask_other {id id' : TaskId} (hne : id' ≠ id) (wake : Wake) (w : World) :
    (w.runTask id' wake).scheduler.tasks[id]? = w.scheduler.tasks[id]? := by
  rcases runTask_cases id' wake w with ⟨work, heq⟩ | heq
  · rw [heq, Scheduler.tasks_settle, run_tasks]
    exact Array.getElem?_setIfInBounds_ne hne
  · rw [heq]

/-- A task that is there stays as it is in the passages of others, unless it is aborted. -/
theorem Passes.task_cases {w w' : World} {mover : Mover} {id : TaskId} {task : Task}
    (hpasses : w.Passes mover w') (hother : ∀ wake, mover ≠ .task id wake)
    (htask : w.scheduler.tasks[id]? = some task) :
    w'.scheduler.tasks[id]? = some task
      ∨ (∃ work, task = .live work) ∧ w'.scheduler.tasks[id]? = some (.ended .aborted) := by
  cases hpasses with
  | call hwaits => exact perform_keeps w hwaits id task htask
  | task id' wake =>
      have hne : id' ≠ id := fun heq => hother wake (heq ▸ rfl)
      rw [runTask_other hne]
      exact .inl htask
  | aside hbeside => exact keeps_of_eq hbeside.tasks id task htask

/-- A client that is there stays there. -/
theorem Passes.client {w w' : World} {mover : Mover} (hpasses : w.Passes mover w') {k : ClientId}
    {c : Client} (hc : w.clients[k]? = some c) : ∃ c', w'.clients[k]? = some c' := by
  obtain ⟨ev, hmove⟩ : ∃ ev, Move w ev w' := by
    cases hpasses with
    | call hwaits => exact ⟨_, .call hwaits⟩
    | task id wake => exact ⟨_, .task id wake⟩
    | aside hbeside => exact ⟨_, .aside hbeside.toSameClients⟩
  obtain ⟨c', hc', -⟩ := move_writes hmove k c hc
  exact ⟨c', hc'⟩

end World

end GatewayClient
