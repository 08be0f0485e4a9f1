import GatewayClient.Proofs.Scenario.Clock

/-!
# One task among others

The scheduler holds a task in its queue or among those asleep. Most moves leave alone what it holds
of one task (`Scheduler.Agrees`); the others are few: the task is started or runs itself, the clock
moves, a token is cancelled, or everything is shut down. So what goes from a world to the one after
is shown for these moves only (`World.Concerns`), and then goes through every scenario.
-/

namespace GatewayClient

/-! ## What the scheduler holds of a task -/

namespace Scheduler

/-- The reasons for which a task is queued. -/
def wakes (id : TaskId) (r : Scheduler) : List Wake := (r.queue.filter (·.1 = id)).map (·.2)

/-- The waits of a task. -/
def waits (id : TaskId) (r : Scheduler) : List Sleeper := r.sleepers.filter (·.task = id)

/-- Queues the tasks whose waits satisfy a condition. -/
def rouse (p : Sleeper → Bool) (wake : Wake) (r : Scheduler) : Scheduler :=
  { r with
    queue := r.queue ++ (r.sleepers.filter p).map fun s => (s.task, wake)
    sleepers := r.sleepers.filter fun s => !p s }

theorem cancel_eq (token : String) (r : Scheduler) :
    r.cancel token =
      { r.rouse (·.token = some token) .token with cancelled := token :: r.cancelled } := by
  simp only [cancel, rouse, List.partition_eq_filter_filter]
  rfl

theorem moveTo_eq (time : Nat) (r : Scheduler) :
    r.moveTo time =
      { r.rouse (·.due ≤ Nat.max r.now time) .timer with now := Nat.max r.now time } := by
  simp only [moveTo, rouse, List.partition_eq_filter_filter]
  rfl

theorem waits_filter (id : TaskId) (p : Sleeper → Bool) (r : Scheduler) :
    (r.sleepers.filter p).filter (·.task = id) = (r.waits id).filter p := by
  rw [waits, List.filter_filter, List.filter_filter]
  exact List.filter_congr fun s _ => Bool.and_comm ..

theorem wakes_rouse (id : TaskId) (p : Sleeper → Bool) (wake : Wake) (r : Scheduler) :
    (r.rouse p wake).wakes id = r.wakes id ++ ((r.waits id).filter p).map fun _ => wake := by
  have hwoken : (((r.sleepers.filter p).map fun s => (s.task, wake)).filter (·.1 = id)).map (·.2) =
      ((r.waits id).filter p).map fun _ => wake := by
    rw [List.filter_map, List.map_map, ← waits_filter]
    rfl
  rw [wakes, rouse, List.filter_append, List.map_append, hwoken]
  rfl

theorem waits_rouse (id : TaskId) (p : Sleeper → Bool) (wake : Wake) (r : Scheduler) :
    (r.rouse p wake).waits id = (r.waits id).filter fun s => !p s :=
  waits_filter id _ r

/-- The clock, the tokens and all that is held of a task are as they were. -/
structure Agrees (id : TaskId) (r r' : Scheduler) : Prop where
  now : r'.now = r.now
  cancelled : r'.cancelled = r.cancelled
  task : r'.tasks[id]? = r.tasks[id]?
  wakes : r'.wakes id = r.wakes id
  waits : r'.waits id = r.waits id

theorem Agrees.refl (id : TaskId) (r : Scheduler) : r.Agrees id r := ⟨rfl, rfl, rfl, rfl, rfl⟩

theorem agrees_pop {id id' : TaskId} {wake : Wake} {pre post : List (TaskId × Wake)} {r : Scheduler}
    (hne : id' ≠ id) (hqueue : r.queue = pre ++ (id', wake) :: post) :
    r.Agrees id { r with queue := pre ++ post } := by
  refine ⟨rfl, rfl, rfl, ?_, rfl⟩
  simp only [Scheduler.wakes, hqueue, List.filter_append, List.filter_cons, hne, decide_false,
    Bool.false_eq_true, if_false]

/-- A task that is queued once has nothing queued any more when it is taken out, wherever it stood
in the queue. -/
theorem wakes_pop {id : TaskId} {wake : Wake} {pre post : List (TaskId × Wake)} {r : Scheduler}
    (hqueue : r.queue = pre ++ (id, wake) :: post) :
    ∃ before after : List Wake, r.wakes id = before ++ wake :: after
      ∧ Scheduler.wakes id { r with queue := pre ++ post } = before ++ after := by
  refine ⟨(pre.filter (·.1 = id)).map (·.2), (post.filter (·.1 = id)).map (·.2), ?_, ?_⟩
  · simp only [Scheduler.wakes, hqueue, List.filter_append, List.filter_cons, decide_true, if_true,
      List.map_append, List.map_cons]
  · simp only [Scheduler.wakes, List.filter_append, List.map_append]

theorem wakes_pop_ne_nil {id : TaskId} {wake : Wake} {pre post : List (TaskId × Wake)}
    {r : Scheduler} (hqueue : r.queue = pre ++ (id, wake) :: post) : r.wakes id ≠ [] := by
  obtain ⟨before, after, hwakes, -⟩ := wakes_pop hqueue
  rw [hwakes]
  exact List.append_ne_nil_of_right_ne_nil before (List.cons_ne_nil wake after)

/-- The reason for which a task is taken out of the queue is the one for which it was in it. -/
theorem wakes_pop_of_single {id : TaskId} {wake wake' : Wake} {pre post : List (TaskId × Wake)}
    {r : Scheduler} (hqueue : r.queue = pre ++ (id, wake) :: post) (hone : r.wakes id = [wake']) :
    wake = wake' ∧ Scheduler.wakes id { r with queue := pre ++ post } = [] := by
  obtain ⟨before, after, hwakes, hrest⟩ := wakes_pop hqueue
  rw [hone] at hwakes
  obtain ⟨rfl, heq⟩ : before = [] ∧ [wake'] = wake :: after := by
    cases before with
    | nil => exact ⟨rfl, hwakes⟩
    | cons first rest => simp at hwakes
  cases heq
  exact ⟨rfl, hrest⟩

theorem agrees_spawn {id : TaskId} {r : Scheduler} (hne : r.tasks.size ≠ id) (work : Work) :
    r.Agrees id
      { r with
        tasks := r.tasks.push (.live work)
        queue := r.queue ++ [(r.tasks.size, .started)] } := by
  refine ⟨rfl, rfl, ?_, ?_, rfl⟩
  · rw [Array.getElem?_push, if_neg hne.symm]
  · simp only [Scheduler.wakes, List.filter_append, List.filter_cons, hne, decide_false,
      Bool.false_eq_true, if_false, List.filter_nil, List.append_nil]

theorem agrees_sleep {id id' : TaskId} (hne : id' ≠ id) (work : Work) (ms : Nat)
    (token : Option String) (r : Scheduler) : r.Agrees id (r.sleep id' work ms token) := by
  refine ⟨rfl, rfl, Array.getElem?_setIfInBounds_ne hne, rfl, ?_⟩
  simp only [Scheduler.waits, sleep, List.filter_append, List.filter_cons, hne, decide_false,
    Bool.false_eq_true, if_false, List.filter_nil, List.append_nil]

theorem waits_sleep (id : TaskId) (work : Work) (ms : Nat) (token : Option String) (r : Scheduler) :
    (r.sleep id work ms token).waits id = r.waits id ++ [⟨id, r.dueIn ms, token⟩] := by
  simp only [waits, sleep, List.filter_append, List.filter_cons, decide_true, if_true,
    List.filter_nil]

theorem agrees_finish {id id' : TaskId} (hne : id' ≠ id) (ending : Ending) (r : Scheduler) :
    r.Agrees id (r.finish id' ending) :=
  ⟨rfl, rfl, Array.getElem?_setIfInBounds_ne hne, rfl, rfl⟩

theorem agrees_settle {id id' : TaskId} (hne : id' ≠ id) (r : Scheduler) (progress : Progress) :
    r.Agrees id (r.settle id' progress) := by
  cases progress with
  | asleep work ms token => exact agrees_sleep hne work ms token r
  | ended ending => exact agrees_finish hne ending r

/-- Of what is not a task nothing is queued or asleep. -/
def Vacant (id : TaskId) (r : Scheduler) : Prop :=
  r.tasks[id]? = none → r.wakes id = [] ∧ r.waits id = []

theorem Vacant.rouse {id : TaskId} {p : Sleeper → Bool} {wake : Wake} {r r' : Scheduler}
    (hvacant : r.Vacant id) (htasks : r'.tasks = r.tasks)
    (hwakes : r'.wakes id = (r.rouse p wake).wakes id)
    (hwaits : r'.waits id = (r.rouse p wake).waits id) : r'.Vacant id := by
  intro hnone
  obtain ⟨hwakes₀, hwaits₀⟩ := hvacant (htasks ▸ hnone)
  rw [hwakes, hwaits, wakes_rouse, waits_rouse, hwakes₀, hwaits₀]
  exact ⟨rfl, rfl⟩

end Scheduler

namespace World

/-! ## Moves as a task sees them -/

/-- The world with some of the queue taken out. -/
def withQueue (queue : List (TaskId × Wake)) (w : World) : World :=
  { w with scheduler := { w.scheduler with queue } }

/-- What goes from a world to the one after, move by move, as far as the task `id` is concerned,
while the task does not run and the clock stands still. -/
structure Leaves (id : TaskId) (R : World → World → Prop) : Prop where
  trans : ∀ {w w' w'' : World}, R w w' → R w' w'' → R w w''
  agrees : ∀ {w w' : World}, w.scheduler.Agrees id w'.scheduler → R w w'
  cancel : ∀ {w w' : World} {token : String}, w'.scheduler = w.scheduler.cancel token → R w w'
  spawn : ∀ {work : Work} {w w' : World}, w.spawn work = .ok (id, w') → R w w'
  shutDown : ∀ w : World, R w { w with scheduler := w.scheduler.shutDown }

/-- What goes from a world to the one after, move by move, as far as the task `id` is concerned. The
task may be taken from anywhere in the queue. -/
structure Concerns (id : TaskId) (R : World → World → Prop) : Prop extends Leaves id R where
  own : ∀ {w : World} {wake : Wake} (pre post : List (TaskId × Wake)),
    w.scheduler.queue = pre ++ (id, wake) :: post →
      R w ((w.withQueue (pre ++ post)).runTask id wake)
  clock : ∀ {w : World} {time : Nat}, w.scheduler.queue = [] →
    (∀ s ∈ w.scheduler.sleepers, time ≤ s.due) →
      R w { w with scheduler := w.scheduler.moveTo time }

namespace Leaves

variable {id : TaskId} {R : World → World → Prop} (hR : Leaves id R)
include hR

theorem scheduler {w w' : World} (hscheduler : w'.scheduler = w.scheduler) : R w w' :=
  hR.agrees (by rw [hscheduler]; exact .refl ..)

theorem frame : Frame R where
  trans := hR.trans
  aside := fun haside => hR.scheduler haside.scheduler
  spawn := by
    intro work w w' id' _ hspawn
    by_cases hown : id' = id
    · exact hR.spawn (hown ▸ hspawn)
    · obtain ⟨-, rfl, hscheduler⟩ := spawn_eq hspawn
      exact hR.agrees (by rw [hscheduler]; exact Scheduler.agrees_spawn hown work)
  cancel := fun _ _ => hR.cancel rfl
  shutDown := hR.shutDown

theorem runTask {id' : TaskId} (hne : id' ≠ id) (wake : Wake) (w : World) :
    R w (w.runTask id' wake) := by
  rcases runTask_cases id' wake w with ⟨work, heq⟩ | heq
  · have hrun : R w (w.run work wake).1 := by
      rcases run_scheduler work wake w with hsame | ⟨token, hcancel⟩
      · exact hR.scheduler hsame
      · exact hR.cancel hcancel
    rw [heq]
    exact hR.trans hrun (hR.agrees (Scheduler.agrees_settle hne _ _))
  · rw [heq]
    exact hR.scheduler rfl

theorem call (w : World) {s : Step} (hwaits : ¬ s.Waits) : R w (w.perform s).1 := by
  by_cases hconfigures : s.Configures
  · exact hR.scheduler (configure_scheduler w hconfigures)
  · exact hR.frame.perform w hwaits hconfigures

/-- A turn of another task, wherever it stood in the queue. -/
theorem turn {w : World} {id' : TaskId} {wake : Wake} (pre post : List (TaskId × Wake))
    (hne : id' ≠ id) (hqueue : w.scheduler.queue = pre ++ (id', wake) :: post) :
    R w ((w.withQueue (pre ++ post)).runTask id' wake) :=
  hR.trans (hR.agrees (Scheduler.agrees_pop hne hqueue)) (hR.runTask hne wake _)

end Leaves

/-- The scheduler takes the first task of the queue. -/
theorem Concerns.covers {id : TaskId} {R : World → World → Prop} (hR : Concerns id R) :
    Covers R where
  trans := hR.trans
  aside := hR.frame.aside
  call := hR.call _
  turn := by
    intro w id' wake rest hqueue
    by_cases hown : id' = id
    · subst hown
      exact hR.own [] rest hqueue
    · exact hR.turn [] rest hown hqueue
  clock := hR.clock

/-- A new task is queued once. -/
theorem wakes_spawn {work : Work} {w w' : World} {id : TaskId}
    (hspawn : w.spawn work = .ok (id, w')) :
    w'.scheduler.wakes id = w.scheduler.wakes id ++ [.started] := by
  rw [(spawn_eq hspawn).2.2]
  simp only [Scheduler.wakes, List.filter_append, List.map_append, List.filter_cons, decide_true,
    if_true, List.filter_nil, List.map_cons, List.map_nil]

theorem runTask_size (id : TaskId) (wake : Wake) (w : World) :
    (w.runTask id wake).scheduler.tasks.size = w.scheduler.tasks.size := by
  rcases runTask_cases id wake w with ⟨work, heq⟩ | heq
  · rw [heq, Scheduler.tasks_settle, Array.size_setIfInBounds, run_tasks]
  · rw [heq]

theorem vacant_concerns (id : TaskId) :
    Concerns id fun w w' => w.scheduler.Vacant id → w'.scheduler.Vacant id where
  trans := fun h h' hvacant => h' (h hvacant)
  agrees := by
    intro w w' hagrees hvacant hnone
    rw [hagrees.wakes, hagrees.waits]
    exact hvacant (hagrees.task.symm.trans hnone)
  cancel := by
    intro w w' token hscheduler hvacant
    have heq := hscheduler.trans (Scheduler.cancel_eq token w.scheduler)
    exact hvacant.rouse (by rw [heq]; rfl) (by rw [heq]; rfl) (by rw [heq]; rfl)
  spawn := by
    intro work w w' hspawn _ hnone
    obtain ⟨-, rfl, hscheduler⟩ := spawn_eq hspawn
    rw [hscheduler, Array.getElem?_push_size] at hnone
    cases hnone
  shutDown := fun _ _ _ => ⟨rfl, rfl⟩
  own := by
    intro w wake pre post hqueue hvacant hnone
    rw [Array.getElem?_eq_none_iff, runTask_size] at hnone
    have hwakes := (hvacant (Array.getElem?_eq_none_iff.mpr hnone)).1
    exact absurd hwakes (Scheduler.wakes_pop_ne_nil hqueue)
  clock := by
    intro w time _ _ hvacant
    have heq := Scheduler.moveTo_eq time w.scheduler
    exact hvacant.rouse rfl (by rw [heq]; rfl) (by rw [heq]; rfl)

end World

end GatewayClient
