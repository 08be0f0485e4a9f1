import Mathlib.Data.List.Basic
import GatewayClient.Proofs.Scenario.Connection
import GatewayClient.Proofs.Scenario.Interleaving

/-!
# No task is lost

A task is queued when it is started, a turn of it puts it to sleep or ends it, and whatever wakes it
takes it out of its sleep. So a task that lives is queued or asleep, and only once, and a task that
has ended is neither (`Scheduler.Accounted`). This goes through every interleaving
(`World.accounted_concerns`): every live task has a turn to come.
-/

namespace GatewayClient

namespace Scheduler

/-- A task is there and has not ended. -/
def lives (id : TaskId) (r : Scheduler) : Bool :=
  match r.tasks[id]? with
  | some (.live _) => true
  | _ => false

/-- A task is queued or asleep once while it lives, and not at all otherwise. -/
def Accounted (id : TaskId) (r : Scheduler) : Prop :=
  (r.wakes id).length + (r.waits id).length = (r.lives id).toNat

variable {id : TaskId} {r r' : Scheduler}

theorem lives_of_live {work : Work} (htask : r.tasks[id]? = some (.live work)) :
    r.lives id = true := by
  rw [lives, htask]

theorem lives_congr (htask : r'.tasks[id]? = r.tasks[id]?) : r'.lives id = r.lives id := by
  rw [lives, lives, htask]

theorem exists_of_lives (hlives : r.lives id = true) :
    ∃ work, r.tasks[id]? = some (.live work) := by
  unfold lives at hlives
  split at hlives
  · next work htask => exact ⟨work, htask⟩
  · cases hlives

/-- Waking moves a task from its sleep into the queue. -/
theorem Accounted.rouse {p : Sleeper → Bool} {wake : Wake} (haccounted : r.Accounted id)
    (htasks : r'.tasks = r.tasks) (hwakes : r'.wakes id = (r.rouse p wake).wakes id)
    (hwaits : r'.waits id = (r.rouse p wake).waits id) : r'.Accounted id := by
  have hlives : r'.lives id = r.lives id := lives_congr (by rw [htasks])
  have hsplit := List.length_eq_length_filter_add (l := r.waits id) p
  rw [Accounted] at haccounted ⊢
  rw [hwakes, hwaits, hlives, wakes_rouse, waits_rouse, List.length_append, List.length_map]
  omega

/-- A task that is taken out of the queue lives, and then it is neither queued nor asleep. -/
theorem Accounted.popped {wake : Wake} (haccounted : r.Accounted id)
    (pre post : List (TaskId × Wake)) (hqueue : r.queue = pre ++ (id, wake) :: post) :
    (∃ work, r.tasks[id]? = some (.live work))
      ∧ Scheduler.wakes id { r with queue := pre ++ post } = [] ∧ r.waits id = [] := by
  obtain ⟨before, after, hwakes, hrest⟩ := wakes_pop hqueue
  rw [Accounted, hwakes, List.length_append, List.length_cons] at haccounted
  have hle := (r.lives id).toNat_le
  have hlives : r.lives id = true := by
    cases hlives : r.lives id with
    | true => rfl
    | false =>
        rw [hlives, Bool.toNat_false] at haccounted
        omega
  refine ⟨exists_of_lives hlives, ?_, List.eq_nil_of_length_eq_zero (by omega)⟩
  rw [hrest]
  refine List.eq_nil_of_length_eq_zero ?_
  rw [List.length_append]
  omega

theorem accounted_settle {progress : Progress} (hlt : id < r.tasks.size) (hwakes : r.wakes id = [])
    (hwaits : r.waits id = []) : (r.settle id progress).Accounted id := by
  have htask : (r.settle id progress).tasks[id]? = some progress.task := by
    rw [tasks_settle]
    exact Array.getElem?_setIfInBounds_self_of_lt hlt
  cases progress with
  | asleep work ms token =>
      rw [Accounted, lives_of_live htask, settle, waits_sleep, hwaits]
      exact congrArg (List.length · + 1) hwakes
  | ended ending =>
      rw [Accounted, lives, htask]
      exact congrArg₂ (List.length · + List.length ·) hwakes hwaits

end Scheduler

namespace World

theorem accounted_runTask {id : TaskId} {work : Work} {w : World}
    (htask : w.scheduler.tasks[id]? = some (.live work)) (hwakes : w.scheduler.wakes id = [])
    (hwaits : w.scheduler.waits id = []) (wake : Wake) :
    (w.runTask id wake).scheduler.Accounted id := by
  -- The run itself wakes other tasks at most.
  have hidle : (w.run work wake).1.scheduler.wakes id = []
      ∧ (w.run work wake).1.scheduler.waits id = [] := by
    rcases run_scheduler work wake w with hsame | ⟨token, hcancel⟩
    · rw [hsame]
      exact ⟨hwakes, hwaits⟩
    · rw [hcancel, Scheduler.cancel_eq]
      have hroused := Scheduler.wakes_rouse id (·.token = some token) .token w.scheduler
      have hroused' := Scheduler.waits_rouse id (·.token = some token) .token w.scheduler
      rw [hwakes, hwaits] at hroused
      rw [hwaits] at hroused'
      exact ⟨hroused, hroused'⟩
  rw [runTask_scheduler htask]
  refine Scheduler.accounted_settle ?_ hidle.1 hidle.2
  rw [run_tasks]
  exact (Array.getElem?_eq_some_iff.mp htask).1

theorem accounted_concerns (id : TaskId) :
    Concerns id fun w w' => w.scheduler.Accounted id → w'.scheduler.Accounted id where
  trans := fun h h' haccounted => h' (h haccounted)
  agrees := by
    intro w w' hagrees haccounted
    rw [Scheduler.Accounted, hagrees.wakes, hagrees.waits, Scheduler.lives_congr hagrees.task]
    exact haccounted
  cancel := by
    intro w w' token hscheduler haccounted
    have heq := hscheduler.trans (Scheduler.cancel_eq token w.scheduler)
    exact haccounted.rouse (by rw [heq]; rfl) (by rw [heq]; rfl) (by rw [heq]; rfl)
  spawn := by
    intro work w w' hspawn haccounted
    have hwakes := wakes_spawn hspawn
    obtain ⟨-, rfl, hscheduler⟩ := spawn_eq hspawn
    have hnone : w.scheduler.lives w.scheduler.tasks.size = false := by
      rw [Scheduler.lives, Array.getElem?_eq_none_iff.mpr (Nat.le_refl _)]
    have hlives : w'.scheduler.lives w.scheduler.tasks.size = true := by
      rw [hscheduler]
      exact Scheduler.lives_of_live Array.getElem?_push_size
    have hwaits : w'.scheduler.waits w.scheduler.tasks.size =
        w.scheduler.waits w.scheduler.tasks.size := by
      rw [hscheduler]
      rfl
    rw [Scheduler.Accounted, hnone, Bool.toNat_false] at haccounted
    rw [Scheduler.Accounted, hlives, hwakes, hwaits, List.length_append, List.length_singleton,
      Bool.toNat_true]
    omega
  shutDown := by
    intro w _
    have hlives : w.scheduler.shutDown.lives id = false := by
      unfold Scheduler.lives
      split
      · next work htask =>
        rw [Scheduler.shutDown, Array.getElem?_map] at htask
        obtain ⟨task, -, hstopped⟩ := Option.map_eq_some_iff.mp htask
        cases task <;> cases hstopped
      · rfl
    rw [Scheduler.Accounted, hlives]
    rfl
  own := by
    intro w wake pre post hqueue haccounted
    obtain ⟨⟨work, htask⟩, hwakes, hwaits⟩ := haccounted.popped pre post hqueue
    exact accounted_runTask (w := w.withQueue (pre ++ post)) htask hwakes hwaits wake
  clock := by
    intro w time _ _ haccounted
    have heq := Scheduler.moveTo_eq time w.scheduler
    exact haccounted.rouse rfl (by rw [heq]; rfl) (by rw [heq]; rfl)

end World

end GatewayClient
