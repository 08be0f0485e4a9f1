import GatewayClient.Proofs.Lookup.Journey
import GatewayClient.Proofs.Scenario.Application
import GatewayClient.Proofs.Scenario.OneTask

/-!
# A lookup in the background is a journey

The task of a lookup that a client starts runs when the scheduler comes to it. It is queued for one
reason, or it is asleep with one wait, or it has ended, and this goes with where the lookup is
(`Attached`). Whatever else happens keeps it so or lets the lookup go on as a journey does: other
tasks run, tokens are cancelled, calls are made, and the clock moves only while nothing is queued
and not past the end of a wait. So in every scenario a lookup of a client makes a journey, up to
now or up to a shutdown (`play_follows`), and what is true of every journey is true of it.
-/

namespace GatewayClient

namespace Lookup

/-! ## Where a task stands -/

/-- The ending of a task goes with where its lookup ended; a report may still be refused. -/
inductive Place.Ends : Place → Ending → Prop
  | faulted {f : Fault} : Ends (.faulted f) (.faulted f)
  | failed {e : ClientError} : Ends (.returned (.error e)) (.returned (.error e))
  | reported {report : LookupReport} {result : Except ClientError Finding} :
      Ends (.returned (.ok report)) (.returned result)

/-- The task `id` stands where the lookup of the client `k` is. It is queued for a reason for which
the lookup can go on, it is asleep for as long as the lookup is and listens for what it hears, or it
has ended as the lookup has. -/
inductive Attached (k : ClientId) (id : TaskId) (s : Scene) : Prop
  | queued {phase : Option LookupPhase} {wake : Wake} :
      s.world.scheduler.tasks[id]? = some (.live (.lookup k s.lookup phase)) →
      s.world.scheduler.wakes id = [wake] → s.world.scheduler.waits id = [] →
      s.Ready phase wake → Attached k id s
  | asleep {phase : LookupPhase} {due : Nat} :
      s.world.scheduler.tasks[id]? = some (.live (.lookup k s.lookup (some phase))) →
      s.world.scheduler.wakes id = [] →
      s.world.scheduler.waits id = [⟨id, due, World.tokenOf s.lookup phase⟩] →
      s.place = .asleep phase due → ¬ s.Hears phase → Attached k id s
  | ended {ending : Ending} :
      s.world.scheduler.tasks[id]? = some (.ended ending) →
      s.world.scheduler.wakes id = [] → s.world.scheduler.waits id = [] →
      s.place.Ends ending → Attached k id s

/-- A journey has led from a scene to where the task stands in a world, or the task was aborted. -/
def Follows (k : ClientId) (id : TaskId) (s₀ : Scene) (w : World) : Prop :=
  (∃ legs s, Journey s₀ legs s ∧ s.world = w ∧ Attached k id s)
    ∨ w.scheduler.tasks[id]? = some (.ended .aborted)

/-- What goes on from a world to another lets the lookup go on as a journey does. -/
def Carries (k : ClientId) (id : TaskId) (w w' : World) : Prop :=
  ∀ s₀, Follows k id s₀ w → Follows k id s₀ w'

variable {k : ClientId} {id : TaskId} {s : Scene} {w w' : World}

theorem Scene.Ready.passes {phase : Option LookupPhase} {wake : Wake} (hready : s.Ready phase wake)
    (hpasses : s.Passes w) : Scene.Ready { s with world := w } phase wake := by
  have htime : s.time ≤ w.scheduler.now := by
    cases hpasses with
    | happens hnow => exact Nat.le_of_eq hnow.symm
    | elapses htime => exact htime
  cases hready with
  | called hplace => exact .called hplace
  | timer hplace hdue => exact .timer hplace (Nat.le_trans hdue htime)
  | token hplace hheard => exact .token hplace (hpasses.isCancelled hheard)

theorem Attached.task (hattached : Attached k id s) :
    ∃ task, s.world.scheduler.tasks[id]? = some task := by
  cases hattached with
  | queued htask => exact ⟨_, htask⟩
  | asleep htask => exact ⟨_, htask⟩
  | ended htask => exact ⟨_, htask⟩

/-- The world has gone on while the lookup stayed where it is, and the task stands there. -/
structure Stays (k : ClientId) (id : TaskId) (s : Scene) (w : World) : Prop where
  passes : s.Passes w
  attached : Attached k id { s with world := w }

theorem Stays.follows (hstays : Stays k id s w) : Follows k id s w :=
  .inl ⟨[], _, .passes .here hstays.passes, rfl, hstays.attached⟩

/-- What a journey has led to goes on with what follows from there. -/
theorem Journey.follows {s₀ : Scene} {legs : List Leg} (hjourney : Journey s₀ legs s)
    (hfollows : Follows k id s w) : Follows k id s₀ w := by
  rcases hfollows with ⟨legs', s', hjourney', hend⟩ | haborted
  · exact .inl ⟨legs ++ legs', s', hjourney.append hjourney', hend⟩
  · exact .inr haborted

theorem carries_of
    (haborted : w.scheduler.tasks[id]? = some (.ended .aborted) →
      w'.scheduler.tasks[id]? = some (.ended .aborted))
    (hattached : ∀ s, s.world = w → Attached k id s → Follows k id s w') : Carries k id w w' := by
  rintro s₀ (⟨legs, s, hjourney, hworld, hstands⟩ | hended)
  · exact hjourney.follows (hattached s hworld hstands)
  · exact .inr (haborted hended)

/-! ## What leaves a task alone -/

theorem Attached.agrees (hattached : Attached k id s)
    (hagrees : s.world.scheduler.Agrees id w.scheduler) : Stays k id s w := by
  have hcancelled := Scheduler.isCancelled_congr hagrees.cancelled
  have hpasses : s.Passes w := .happens hagrees.now fun token h => (hcancelled token).trans h
  refine ⟨hpasses, ?_⟩
  cases hattached with
  | queued htask hwakes hwaits hready =>
      exact .queued (hagrees.task.trans htask) (hagrees.wakes.trans hwakes)
        (hagrees.waits.trans hwaits) (hready.passes hpasses)
  | asleep htask hwakes hwaits hplace hsilent =>
      exact .asleep (hagrees.task.trans htask) (hagrees.wakes.trans hwakes)
        (hagrees.waits.trans hwaits) hplace fun hheard => hsilent ((hcancelled _).symm.trans hheard)
  | ended htask hwakes hwaits hends =>
      exact .ended (hagrees.task.trans htask) (hagrees.wakes.trans hwakes)
        (hagrees.waits.trans hwaits) hends

theorem carries_agrees (hagrees : w.scheduler.Agrees id w'.scheduler) : Carries k id w w' :=
  carries_of (fun hended => hagrees.task.trans hended) fun _ hworld hattached =>
    (hattached.agrees (hworld ▸ hagrees)).follows

/-! ## What wakes a task -/

/-- A task that is woken has a reason to go on, and one that is not hears nothing. -/
theorem Attached.rouse {p : Sleeper → Bool} {wake : Wake} (hattached : Attached k id s)
    (hpasses : s.Passes w) (htasks : w.scheduler.tasks = s.world.scheduler.tasks)
    (hwakes : w.scheduler.wakes id = (s.world.scheduler.rouse p wake).wakes id)
    (hwaits : w.scheduler.waits id = (s.world.scheduler.rouse p wake).waits id)
    (hwoken : ∀ phase due, s.place = .asleep phase due →
      p ⟨id, due, World.tokenOf s.lookup phase⟩ = true →
      Scene.Ready { s with world := w } (some phase) wake)
    (hasleep : ∀ phase due, s.place = .asleep phase due → ¬ s.Hears phase →
      p ⟨id, due, World.tokenOf s.lookup phase⟩ = false →
      ¬ Scene.Hears { s with world := w } phase) : Stays k id s w := by
  rw [Scheduler.wakes_rouse] at hwakes
  rw [Scheduler.waits_rouse] at hwaits
  refine ⟨hpasses, ?_⟩
  cases hattached with
  | queued htask hwakes₀ hwaits₀ hready =>
      rw [hwakes₀, hwaits₀] at hwakes
      rw [hwaits₀] at hwaits
      exact .queued (htasks ▸ htask) hwakes hwaits (hready.passes hpasses)
  | @asleep phase due htask hwakes₀ hwaits₀ hplace hsilent =>
      rw [hwakes₀, hwaits₀] at hwakes
      rw [hwaits₀] at hwaits
      cases hp : p ⟨id, due, World.tokenOf s.lookup phase⟩ with
      | true =>
          rw [List.filter_cons_of_pos hp] at hwakes
          rw [List.filter_cons_of_neg (by rw [hp]; exact Bool.false_ne_true)] at hwaits
          exact .queued (htasks ▸ htask) hwakes hwaits (hwoken phase due hplace hp)
      | false =>
          rw [List.filter_cons_of_neg (by rw [hp]; exact Bool.false_ne_true)] at hwakes
          rw [List.filter_cons_of_pos (by rw [hp]; rfl)] at hwaits
          exact .asleep (htasks ▸ htask) hwakes hwaits hplace (hasleep phase due hplace hsilent hp)
  | ended htask hwakes₀ hwaits₀ hends =>
      rw [hwakes₀, hwaits₀] at hwakes
      rw [hwaits₀] at hwaits
      exact .ended (htasks ▸ htask) hwakes hwaits hends

theorem Attached.cancel {token : String} (hattached : Attached k id s)
    (hscheduler : w.scheduler = s.world.scheduler.cancel token) : Stays k id s w := by
  have heq := hscheduler.trans (Scheduler.cancel_eq token s.world.scheduler)
  have hholds := Scheduler.cancel_holds token s.world.scheduler
  rw [← hscheduler] at hholds
  refine hattached.rouse (.happens hholds.now hholds.cancelled) (by rw [heq]; rfl)
    (by rw [heq]; rfl) (by rw [heq]; rfl) (fun phase due hplace hlistens => .token hplace ?_)
    fun phase due hplace hsilent hlistens hheard => hsilent ?_
  · -- The token for which the lookup listens is the one that is cancelled.
    have htoken : World.tokenOf s.lookup phase = some token := of_decide_eq_true hlistens
    rw [Scene.Hears, htoken, hscheduler]
    exact List.contains_iff_mem.mpr (List.mem_cons_self ..)
  · rw [Scene.Hears, hscheduler] at hheard
    rw [Scene.Hears]
    have hother := of_decide_eq_false hlistens
    dsimp only at hother hheard
    generalize World.tokenOf s.lookup phase = listened at hother hheard ⊢
    cases listened with
    | none => exact hheard
    | some t =>
        rcases List.mem_cons.mp (List.contains_iff_mem.mp hheard) with heq' | hmem
        · exact absurd (congrArg some heq') hother
        · exact List.contains_iff_mem.mpr hmem

theorem carries_cancel {token : String}
    (hscheduler : w'.scheduler = w.scheduler.cancel token) : Carries k id w w' :=
  carries_of (fun hended => by rw [hscheduler]; exact hended) fun _ hworld hattached =>
    (hattached.cancel (hworld ▸ hscheduler)).follows

theorem Attached.clock {time : Nat} (hattached : Attached k id s)
    (hqueue : s.world.scheduler.queue = [])
    (hfirst : ∀ n ∈ s.world.scheduler.sleepers, time ≤ n.due) :
    Stays k id s { s.world with scheduler := s.world.scheduler.moveTo time } := by
  have heq := Scheduler.moveTo_eq time s.world.scheduler
  have hidle : s.world.scheduler.wakes id = [] := by rw [Scheduler.wakes, hqueue]; rfl
  -- A lookup that is queued would go on first; one that is asleep is not due before the others.
  have hallows : s.Allows (Nat.max s.time time) := by
    cases hattached with
    | queued _ hwakes => rw [hidle] at hwakes; cases hwakes
    | @asleep phase due _ _ hwaits hplace hsilent =>
        have hmem : ⟨id, due, World.tokenOf s.lookup phase⟩ ∈ s.world.scheduler.waits id := by
          rw [hwaits]
          exact List.mem_singleton_self _
        have hle : time ≤ due := hfirst _ (List.mem_filter.mp hmem).1
        rw [Scene.Allows, hplace]
        exact ⟨Nat.max_le.mpr ⟨Nat.le_max_left _ _, Nat.le_trans hle (Nat.le_max_right _ _)⟩,
          fun hheard => absurd hheard hsilent⟩
    | ended _ _ _ hends =>
        rw [Scene.Allows]
        generalize s.place = place at hends
        cases hends <;> trivial
  refine hattached.rouse (.elapses (Nat.le_max_left _ _) hallows rfl) rfl
    (by rw [heq]; rfl) (by rw [heq]; rfl) (fun phase due hplace hdue => ?_)
    fun phase due _ hsilent _ => hsilent
  exact .timer hplace (of_decide_eq_true hdue)

theorem carries_clock {time : Nat} (hqueue : w.scheduler.queue = [])
    (hfirst : ∀ n ∈ w.scheduler.sleepers, time ≤ n.due) :
    Carries k id w { w with scheduler := w.scheduler.moveTo time } := by
  refine carries_of (fun hended => hended) fun s hworld hattached => ?_
  subst hworld
  exact (hattached.clock hqueue hfirst).follows

/-! ## What runs a task -/

/-- A run of the task is a leg of the lookup, and the task stands where it leads. -/
theorem stays_runTask {phase : Option LookupPhase} {wake : Wake}
    (htask : s.world.scheduler.tasks[id]? = some (.live (.lookup k s.lookup phase)))
    (hwakes : s.world.scheduler.wakes id = []) (hwaits : s.world.scheduler.waits id = []) :
    Stays k id (s.ran phase wake) (s.world.runTask id wake) := by
  have hset : ∀ task, (s.world.scheduler.tasks.setIfInBounds id task)[id]? = some task :=
    fun task => Array.getElem?_setIfInBounds_self_of_lt (Array.getElem?_eq_some_iff.mp htask).1
  have hrun := World.runTask_lookup htask wake
  generalize s.world.runTask id wake = w' at hrun ⊢
  have hpasses : w'.scheduler.now = s.time → w'.scheduler.cancelled = s.world.scheduler.cancelled →
      (s.ran phase wake).Passes w' := by
    intro hnow hcancelled
    refine .happens ?_ fun token htoken => ?_
    · rw [hnow, Scene.time, Scene.time, s.ran_scheduler]
    · rw [s.ran_scheduler] at htoken
      exact (Scheduler.isCancelled_congr hcancelled token).trans htoken
  have hends : ∀ ending, w'.scheduler = s.world.scheduler.finish id ending →
      (s.leg phase wake).arrival.Ends ending → Stays k id (s.ran phase wake) w' := by
    intro ending hscheduler harrival
    refine ⟨hpasses (by rw [hscheduler]; rfl) (by rw [hscheduler]; rfl),
      .ended ?_ ?_ ?_ harrival⟩
    · rw [hscheduler]; exact hset _
    · rw [hscheduler]; exact hwakes
    · rw [hscheduler]; exact hwaits
  cases hrun with
  | @waits phase' ms hnext _ hscheduler =>
      have harrival : (s.leg phase wake).arrival =
          .asleep phase' (s.world.scheduler.dueIn ms) := by
        rw [Leg.arrival, Scene.leg, hnext]
        rfl
      refine ⟨hpasses (by rw [hscheduler]; rfl) (by rw [hscheduler]; rfl),
        .asleep ?_ ?_ ?_ harrival fun hheard => ?_⟩
      · rw [hscheduler]; exact hset _
      · rw [hscheduler]; exact hwakes
      · rw [hscheduler, Scheduler.waits_sleep, hwaits]
        rfl
      · have hsilent := (Leg.arrival_asleep harrival).2
        rw [Scene.Hears, hscheduler] at hheard
        exact Bool.false_ne_true (hsilent.symm.trans hheard)
  | faults hnext _ hscheduler =>
      refine hends _ hscheduler ?_
      rw [Leg.arrival, Scene.leg, hnext]
      exact .faulted
  | fails hnext _ hscheduler =>
      refine hends _ hscheduler ?_
      rw [Leg.arrival, Scene.leg, hnext]
      exact .failed
  | refused hnext _ _ hscheduler =>
      refine hends _ hscheduler ?_
      rw [Leg.arrival, Scene.leg, hnext]
      exact .reported
  | applied hnext _ _ _ hscheduler =>
      refine hends _ hscheduler ?_
      rw [Leg.arrival, Scene.leg, hnext]
      exact .reported

/-- The scene after the task was taken out of the queue. -/
def Scene.withQueue (s : Scene) (queue : List (TaskId × Wake)) : Scene :=
  { s with world := s.world.withQueue queue }

/-- A turn of the task: it is taken out of the queue for a reason for which the lookup can go on,
and runs. -/
structure Turned (k : ClientId) (id : TaskId) (s : Scene) (queue : List (TaskId × Wake))
    (phase : Option LookupPhase) (wake : Wake) : Prop where
  wakes : s.world.scheduler.wakes id = [wake]
  idle : (s.withQueue queue).world.scheduler.wakes id = []
  passes : s.Passes (s.withQueue queue).world
  ready : (s.withQueue queue).Ready phase wake
  task : s.world.scheduler.tasks[id]? = some (.live (.lookup k s.lookup phase))
  stays : Stays k id ((s.withQueue queue).ran phase wake)
    ((s.withQueue queue).world.runTask id wake)

theorem Attached.turn {wake : Wake} {pre post : List (TaskId × Wake)}
    (hattached : Attached k id s) (hqueue : s.world.scheduler.queue = pre ++ (id, wake) :: post) :
    ∃ phase, Turned k id s (pre ++ post) phase wake := by
  have hqueued := Scheduler.wakes_pop_ne_nil hqueue
  cases hattached with
  | asleep _ hnone => exact absurd hnone hqueued
  | ended _ hnone => exact absurd hnone hqueued
  | @queued phase wake' htask hone hwaits hready =>
      obtain ⟨rfl, hrest⟩ := Scheduler.wakes_pop_of_single hqueue hone
      have hpasses : s.Passes (s.withQueue (pre ++ post)).world := .happens rfl fun _ h => h
      exact ⟨phase, hone, hrest, hpasses, hready.passes hpasses, htask,
        stays_runTask htask hrest hwaits⟩

/-- The scheduler runs the task for the reason for which it is queued. -/
theorem carries_own {wake : Wake} (pre post : List (TaskId × Wake))
    (hqueue : w.scheduler.queue = pre ++ (id, wake) :: post) :
    Carries k id w ((w.withQueue (pre ++ post)).runTask id wake) := by
  refine carries_of (fun hended => ?_) fun s hworld hattached => ?_
  · rw [(World.runTask_idle wake fun work hlive => ?_).2]
    · exact hended
    · have hlive' := hended.symm.trans hlive
      cases hlive'
  · subst hworld
    obtain ⟨phase, hturned⟩ := hattached.turn hqueue
    exact ((Journey.here.passes hturned.passes).runs hturned.ready).follows hturned.stays.follows

/-! ## In every scenario -/

theorem carries_concerns (k : ClientId) (id : TaskId) : World.Concerns id (Carries k id) where
  trans := fun h h' s₀ hfollows => h' s₀ (h s₀ hfollows)
  agrees := carries_agrees
  cancel := carries_cancel
  spawn := by
    intro work w w' hspawn
    have hnone : w.scheduler.tasks[id]? = none :=
      Array.getElem?_eq_none_iff.mpr (Nat.le_of_eq (World.spawn_eq hspawn).2.1.symm)
    refine carries_of (fun hended => ?_) fun s hworld hattached => ?_
    · rw [hnone] at hended; cases hended
    · obtain ⟨task, htask⟩ := hattached.task
      rw [hworld, hnone] at htask
      cases htask
  shutDown := by
    intro w
    refine carries_of Scheduler.shutDown_ended fun s hworld hattached => ?_
    subst hworld
    cases hattached with
    | queued htask => exact .inr (Scheduler.shutDown_live htask)
    | asleep htask => exact .inr (Scheduler.shutDown_live htask)
    | ended htask _ _ hends =>
        exact Stays.follows ⟨.happens rfl fun _ h => h,
          .ended (Scheduler.shutDown_ended htask) rfl rfl hends⟩
  own := carries_own
  clock := carries_clock

/-- In every scenario the task of a lookup makes a journey from where it stands. -/
theorem Attached.play (hattached : Attached k id s) (steps : List Step) :
    Follows k id s (s.world.play steps).1 :=
  (carries_concerns k id).covers.play steps s.world s (.inl ⟨[], s, .here, rfl, hattached⟩)

/-- A lookup that a client starts is queued, and its task is new. -/
theorem attached_of_discover {w₀ w₁ : World} {h : String} {token : Option String} {finished : Bool}
    {id : TaskId} (hvacant : w₀.scheduler.Vacant w₀.scheduler.tasks.size)
    (hcall : w₀.perform (.discover h token) = (w₁, .lookupStarted finished))
    (hhandle : w₁.handle? h = some (.lookup (.task id))) :
    ∃ l, w₀.client.lookup token = .ok l ∧ Attached w₀.current id ⟨w₁, l, .called⟩ := by
  obtain ⟨-, ⟨-, hfailed⟩ | ⟨id', l, hid', htask, hlookup, w', hspawn, hscheduler⟩⟩ :=
    World.discover_cases hcall hhandle
  · cases hfailed
  · cases hid'
    obtain ⟨-, rfl, hscheduler'⟩ := World.spawn_eq hspawn
    obtain ⟨hwakes, hwaits⟩ := hvacant (Array.getElem?_eq_none_iff.mpr (Nat.le_refl _))
    refine ⟨l, hlookup, .queued htask ?_ ?_ (.called rfl)⟩
    · dsimp only
      rw [hscheduler, World.wakes_spawn hspawn, hwakes]
      rfl
    · dsimp only
      rw [hscheduler, hscheduler']
      exact hwaits

/-- **A lookup of a client is a journey.** Whatever went before, a lookup that a client starts makes
a journey from the call on, and at every point of the scenario its task stands where the journey has
led, unless a shutdown has aborted it. -/
theorem play_follows {steps : List Step} (steps' : List Step) {w₀ w₁ : World} {h : String}
    {token : Option String} {finished : Bool} {id : TaskId} (hplay : (World.play {} steps).1 = w₀)
    (hcall : w₀.perform (.discover h token) = (w₁, .lookupStarted finished))
    (hhandle : w₁.handle? h = some (.lookup (.task id))) :
    ∃ l, w₀.client.lookup token = .ok l
      ∧ Follows w₀.current id ⟨w₁, l, .called⟩ (w₁.play steps').1 := by
  have hvacant := (World.vacant_concerns w₀.scheduler.tasks.size).covers.play steps {}
    fun _ => ⟨rfl, rfl⟩
  rw [hplay] at hvacant
  obtain ⟨l, hlookup, hattached⟩ := attached_of_discover hvacant hcall hhandle
  exact ⟨l, hlookup, hattached.play steps'⟩

end Lookup

end GatewayClient
