import GatewayClient.Proofs.Scenario.Run

/-!
# A turn of a task, and the clock meanwhile

A turn is a run of the task's work, and then the scheduler settles what is left of the task
(`runTask_eq`, `runTask_cases`). The run changes nothing about the clock and the tasks, except that
it may cancel a token (`run_scheduler`). So while tasks run the clock stands still and cancelled
tokens stay cancelled (`drain_holds`).
-/

namespace GatewayClient

/-- What is left of a task after a run. -/
def Progress.task : Progress → Task
  | asleep work _ _ => .live work
  | ended ending => .ended ending

namespace Scheduler

/-- What the scheduler makes of a task after a run of it. -/
def settle (id : TaskId) (r : Scheduler) : Progress → Scheduler
  | .asleep work ms token => r.sleep id work ms token
  | .ended ending => r.finish id ending

theorem tasks_settle (id : TaskId) (r : Scheduler) (progress : Progress) :
    (r.settle id progress).tasks = r.tasks.setIfInBounds id progress.task := by
  cases progress <;> rfl

/-- The clock stands still, it is not shut down, and cancelled tokens stay cancelled. -/
structure Holds (r r' : Scheduler) : Prop where
  now : r'.now = r.now
  running : r'.running = r.running
  cancelled : ∀ token, r.isCancelled token = true → r'.isCancelled token = true

theorem Holds.refl (r : Scheduler) : r.Holds r := ⟨rfl, rfl, fun _ h => h⟩

theorem Holds.trans {r r' r'' : Scheduler} (h : r.Holds r') (h' : r'.Holds r'') : r.Holds r'' :=
  ⟨h'.now.trans h.now, h'.running.trans h.running,
    fun token htoken => h'.cancelled token (h.cancelled token htoken)⟩

theorem isCancelled_congr {r r' : Scheduler} (hcancelled : r'.cancelled = r.cancelled)
    (token : Option String) : r'.isCancelled token = r.isCancelled token := by
  cases token with
  | none => rfl
  | some t => exact congrArg (·.contains t) hcancelled

theorem settle_holds (id : TaskId) (r : Scheduler) (progress : Progress) :
    r.Holds (r.settle id progress) := by
  cases progress <;> exact ⟨rfl, rfl, fun _ h => h⟩

theorem cancel_holds (token : String) (r : Scheduler) : r.Holds (r.cancel token) := by
  refine ⟨rfl, rfl, fun other hother => ?_⟩
  cases other with
  | none => exact hother
  | some t =>
      have hmem : t ∈ r.cancelled := List.contains_iff_mem.mp hother
      exact List.contains_iff_mem.mpr (List.mem_cons_of_mem _ hmem)

end Scheduler

namespace World

/-! ## A turn -/

section Turn

variable {id : TaskId} {work : Work} {w : World}

/-- A task that lives has its turn. -/
theorem runTask_eq (htask : w.scheduler.tasks[id]? = some (.live work)) (wake : Wake) :
    w.runTask id wake =
      { (w.run work wake).1 with
        scheduler := (w.run work wake).1.scheduler.settle id (w.run work wake).2 } := by
  unfold runTask
  rw [htask]
  dsimp only
  rcases w.run work wake with ⟨w₁, _ | _⟩ <;> rfl

theorem runTask_scheduler (htask : w.scheduler.tasks[id]? = some (.live work)) (wake : Wake) :
    (w.runTask id wake).scheduler =
      (w.run work wake).1.scheduler.settle id (w.run work wake).2 := by
  rw [runTask_eq htask]

/-- A task that has ended, or is none, does nothing. -/
theorem runTask_idle (wake : Wake) (hidle : ∀ work, w.scheduler.tasks[id]? ≠ some (.live work)) :
    w.runEvent id wake = .other ∧ w.runTask id wake = w := by
  constructor
  · unfold runEvent
    split
    · next htask => exact absurd htask (hidle _)
    · rfl
  · unfold runTask
    split
    · next htask => exact absurd htask (hidle _)
    · rfl

theorem runTask_cases (id : TaskId) (wake : Wake) (w : World) :
    (∃ work, w.runTask id wake =
      { (w.run work wake).1 with
        scheduler := (w.run work wake).1.scheduler.settle id (w.run work wake).2 })
      ∨ w.runTask id wake = w := by
  by_cases hlives : ∃ work, w.scheduler.tasks[id]? = some (.live work)
  · obtain ⟨work, htask⟩ := hlives
    exact .inl ⟨work, runTask_eq htask wake⟩
  · exact .inr (runTask_idle wake fun work htask => hlives ⟨work, htask⟩).2

end Turn

/-! ## The clock -/

theorem runLookup_scheduler (id : ClientId) (l : Lookup) (phase : Option LookupPhase) (wake : Wake)
    (w : World) : (w.runLookup id l phase wake).1.scheduler = w.scheduler := by
  have hstep := (stepLookup_aside l phase wake w).scheduler
  unfold runLookup
  dsimp only
  split
  · exact hstep
  · exact hstep
  · exact hstep
  · next report _ =>
    rcases applyReport_cases id report (w.stepLookup l phase wake).1 with ⟨e, -, heq⟩ | ⟨c, -, heq⟩
    · rw [heq]
      exact hstep
    · rw [heq]
      exact hstep

/-- The only thing that a task does to the scheduler by itself is to cancel a token. -/
theorem run_scheduler (work : Work) (wake : Wake) (w : World) :
    (w.run work wake).1.scheduler = w.scheduler
      ∨ ∃ token, (w.run work wake).1.scheduler = w.scheduler.cancel token := by
  cases work with
  | connect request => exact .inl (connect_aside request w).scheduler
  | opening number request response => exact .inl (openSession_aside _ _ _ w).scheduler
  | lookup id l phase => exact .inl (runLookup_scheduler id l phase wake w)
  | cancelAfter ms token => exact .inl rfl
  | cancelNow token => exact .inr ⟨token, rfl⟩

theorem run_holds (work : Work) (wake : Wake) (w : World) :
    w.scheduler.Holds (w.run work wake).1.scheduler := by
  rcases run_scheduler work wake w with hsame | ⟨token, hcancel⟩
  · rw [hsame]; exact .refl _
  · rw [hcancel]; exact Scheduler.cancel_holds token w.scheduler

theorem run_tasks (work : Work) (wake : Wake) (w : World) :
    (w.run work wake).1.scheduler.tasks = w.scheduler.tasks := by
  rcases run_scheduler work wake w with hsame | ⟨token, hcancel⟩
  · rw [hsame]
  · rw [hcancel]; rfl

theorem runTask_holds (id : TaskId) (wake : Wake) (w : World) :
    w.scheduler.Holds (w.runTask id wake).scheduler := by
  rcases runTask_cases id wake w with ⟨work, heq⟩ | heq
  · rw [heq]
    exact (run_holds work wake w).trans (Scheduler.settle_holds id _ _)
  · rw [heq]
    exact .refl _

theorem drain_holds : ∀ (fuel : Nat) (w : World), w.scheduler.Holds (w.drain fuel).scheduler
  | 0, w => .refl _
  | fuel + 1, w => by
      unfold drain
      split
      · exact .refl _
      · next id wake rest _ =>
        have htask :=
          runTask_holds id wake { w with scheduler := { w.scheduler with queue := rest } }
        exact .trans ⟨htask.now, htask.running, htask.cancelled⟩ (drain_holds fuel _)

end World

end GatewayClient
