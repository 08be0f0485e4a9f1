import Mathlib.Data.List.Forall2
import GatewayClient.Proofs.Lookup.Cancellation
import GatewayClient.Proofs.Lookup.Seeking
import GatewayClient.Proofs.Lookup.Timetable
import GatewayClient.Proofs.Scenario.Interleaving
import GatewayClient.Proofs.Scenario.Steady

/-!
# Lookups that run together run as if alone

Lookups share the client, the control plane and the clock, and nothing of their retries. To show it,
a run of many is projected onto each of them: beside an interleaving runs a world in which there is
only the one lookup (`solitary`), whose control plane has the answers that its probes receive. The
two are kept together move by move (`Paired`). What others do is nothing to the lookup alone, or its
token is cancelled, or the clock moves (`accompanies_leaves`, `Paired.clock`); a turn of its own is
a turn of the lookup alone, which does the same (`Paired.turn`).
-/

namespace GatewayClient

open World (Interleaving)

namespace Lookup

/-! ## Legs that are the same -/

/-- Two legs that tell the same of a lookup: in them the lookup goes on at the same time, from the
same phase and for the same reason, with its token cancelled or not, meets the same course, and does
and notes the same. -/
structure Leg.Same (g g' : Leg) : Prop where
  lookup : g'.lookup = g.lookup
  phase : g'.phase = g.phase
  wake : g'.wake = g.wake
  time : g'.time = g.time
  cancelled : g'.cancelled = g.cancelled
  course : g'.course? = g.course?
  step : g'.step = g.step

/-- What a leg does depends on the course that it meets and on whether the token is cancelled. -/
theorem Leg.step_congr {g g' : Leg} (hlookup : g'.lookup = g.lookup) (hphase : g'.phase = g.phase)
    (hwake : g'.wake = g.wake) (hcancelled : g'.cancelled = g.cancelled)
    (hcourse : g'.course? = g.course?) : g'.step = g.step := by
  obtain ⟨w, l, phase, wake⟩ := g
  obtain ⟨w', l', phase', wake'⟩ := g'
  obtain rfl : l' = l := hlookup
  obtain rfl : phase' = phase := hphase
  obtain rfl : wake' = wake := hwake
  rcases begins_or phase' wake' with hbegins | ⟨p, rfl⟩ | ⟨n, rfl, rfl⟩
  · rw [course?_of_begins hbegins, course?_of_begins hbegins, hcancelled] at hcourse
    cases hstops : cancelled ⟨w, l', phase', wake'⟩ with
    | true =>
        rw [hstops] at hcancelled
        rw [step, step, World.stepLookup_stopped hbegins hstops,
          World.stepLookup_stopped hbegins hcancelled]
    | false =>
        rw [hstops] at hcancelled hcourse
        rw [step, step, World.stepLookup_attempt hbegins hstops,
          World.stepLookup_attempt hbegins hcancelled]
        have hsame := Option.some.inj hcourse
        exact congrArg l'.attempt hsame
  · have hheed : w'.scheduler.isCancelled l'.token = w.scheduler.isCancelled l'.token := hcancelled
    show (l'.resume p).heed _ = (l'.resume p).heed _
    rw [hheed]
  · rfl

/-- After legs that are the same a lookup is at the same place. -/
theorem Leg.Same.arrival {g g' : Leg} (hsame : g.Same g') : g'.arrival = g.arrival := by
  have htime : g'.world.scheduler.now = g.world.scheduler.now := hsame.time
  rw [Leg.arrival, Leg.arrival, hsame.step]
  cases g.step.next with
  | wait phase ms => simp only [Place.ofNext, Scheduler.dueIn, htime]
  | returned result => rfl
  | faulted f => rfl

theorem Place.Onward.unique {place : Place} {phase phase' : Option LookupPhase}
    (h : place.Onward phase) (h' : place.Onward phase') : phase' = phase := by
  cases h with
  | called => cases h'; rfl
  | asleep => cases h'; rfl

end Lookup

/-! ## A lookup alone -/

/-- A passage in which nothing happens but what concerns a lookup that is alone, the task 0: it has
a turn, its token is cancelled, or something changes about the clock and the queue only. -/
def Passage.Solitary (token : Option String) (p : Passage) : Prop :=
  match p.mover with
  | .task id _ => id = 0
  | .caller s => ∃ t, token = some t ∧ s = .cancel t none
  | .surroundings => ∃ r, p.after = { p.before with scheduler := r }

namespace Lookup

/-- The world of a lookup that was called and is alone: courses for its probes, and the clock and
the tokens of a scheduler. -/
def solitary (l : Lookup) (script : List ProbeCourse) (r : Scheduler) : World :=
  { plane := { script }
    scheduler :=
      { now := r.now
        cancelled := r.cancelled
        tasks := #[.live (.lookup 0 l none)]
        queue := [(0, .started)] } }

/-- An interleaving in which there is only one lookup. -/
structure Alone (token : Option String) (a : World) (ps : List Passage) (a' : World) : Prop where
  run : Interleaving a ps a'
  solitary : ∀ p ∈ ps, p.Solitary token

theorem Alone.refl (token : Option String) (a : World) : Alone token a [] a :=
  ⟨.start, fun _ hp => (List.not_mem_nil hp).elim⟩

theorem Alone.append {token : Option String} {a a' a'' : World} {ps ps' : List Passage}
    (h : Alone token a ps a') (h' : Alone token a' ps' a'') : Alone token a (ps ++ ps') a'' := by
  refine ⟨h.run.append h'.run, fun p hp => ?_⟩
  rcases List.mem_append.mp hp with hmem | hmem
  · exact h.solitary p hmem
  · exact h'.solitary p hmem

/-- The task of a lookup among others stands as that of a lookup alone. -/
structure Paired (k : ClientId) (id : TaskId) (s : Scene) (a : World) : Prop where
  joint : Attached k id s
  alone : Attached 0 0 { s with world := a }
  wakes : a.scheduler.wakes 0 = s.world.scheduler.wakes id
  now : a.scheduler.now = s.time
  token : a.scheduler.isCancelled s.lookup.token = s.cancelled
  queue : ∀ e ∈ a.scheduler.queue, e.1 = 0
  sleepers : ∀ n ∈ a.scheduler.sleepers, n.task = 0

namespace Paired

variable {k : ClientId} {id : TaskId} {s : Scene} {a w : World}

theorem queue_eq (hpaired : Paired k id s a) :
    a.scheduler.queue = (a.scheduler.wakes 0).map fun wake => (0, wake) := by
  have hall : a.scheduler.queue.filter (·.1 = 0) = a.scheduler.queue :=
    List.filter_eq_self.mpr fun e he => decide_eq_true (hpaired.queue e he)
  have hself : ∀ e ∈ a.scheduler.queue, ((0 : TaskId), e.2) = e :=
    fun e he => Prod.ext (hpaired.queue e he).symm rfl
  rw [Scheduler.wakes, hall, List.map_map]
  exact ((List.map_congr_left hself).trans (List.map_id' _)).symm

/-- Both wait for the same. -/
theorem waits (hpaired : Paired k id s a) :
    (a.scheduler.waits 0).map (fun n => (n.due, n.token)) =
      (s.world.scheduler.waits id).map fun n => (n.due, n.token) := by
  have hwakes := hpaired.wakes
  have halone := hpaired.alone
  cases hpaired.joint with
  | queued _ hone hwaits =>
      rw [hone] at hwakes
      cases halone with
      | queued _ _ hwaits' => rw [hwaits, hwaits']
      | asleep _ hnone => rw [hwakes] at hnone; cases hnone
      | ended _ hnone => rw [hwakes] at hnone; cases hnone
  | asleep _ hnone hwaits hplace =>
      rw [hnone] at hwakes
      cases halone with
      | queued _ hone => rw [hwakes] at hone; cases hone
      | asleep _ _ hwaits' hplace' =>
          rw [hplace] at hplace'
          cases hplace'
          rw [hwaits, hwaits']
          rfl
      | ended _ _ _ hends => rw [hplace] at hends; cases hends
  | ended _ hnone hwaits hends =>
      rw [hnone] at hwakes
      cases halone with
      | queued _ hone => rw [hwakes] at hone; cases hone
      | asleep _ _ _ hplace => rw [hplace] at hends; cases hends
      | ended _ _ hwaits' => rw [hwaits, hwaits']

/-- What wakes one wakes the other. -/
theorem wakes_rouse (hpaired : Paired k id s a) (p : Nat × Option String → Bool) (wake : Wake) :
    (a.scheduler.rouse (fun n => p (n.due, n.token)) wake).wakes 0 =
      (s.world.scheduler.rouse (fun n => p (n.due, n.token)) wake).wakes id := by
  have hwoken : ∀ ns : List Sleeper,
      ((ns.filter fun n => p (n.due, n.token)).map fun _ => wake) =
        ((ns.map fun n => (n.due, n.token)).filter p).map fun _ => wake := by
    intro ns
    rw [List.filter_map, List.map_map]
    rfl
  rw [Scheduler.wakes_rouse, Scheduler.wakes_rouse, hwoken, hwoken, hpaired.waits, hpaired.wakes]

end Paired

/-- What goes on from a world to another while the lookup does not run, the lookup alone can keep up
with. -/
def Accompanies (k : ClientId) (id : TaskId) (w w' : World) : Prop :=
  (w.scheduler.tasks[id]? = some (.ended .aborted) →
      w'.scheduler.tasks[id]? = some (.ended .aborted))
    ∧ ∀ s a, s.world = w → Paired k id s a →
      w'.scheduler.tasks[id]? = some (.ended .aborted)
        ∨ Journey s [] { s with world := w' }
          ∧ ∃ ps a', Alone s.lookup.token a ps a' ∧ legsOf 0 ps = [] ∧ a'.plane = a.plane
            ∧ Paired k id { s with world := w' } a'

section

variable {k : ClientId} {id : TaskId} {w w' : World}

theorem accompanies_trans {w'' : World} (h : Accompanies k id w w')
    (h' : Accompanies k id w' w'') : Accompanies k id w w'' := by
  refine ⟨fun haborted => h'.1 (h.1 haborted), fun s a hworld hpaired => ?_⟩
  rcases h.2 s a hworld hpaired with haborted | ⟨hjourney, ps, a', halone, hlegs, hplane, hpaired'⟩
  · exact .inl (h'.1 haborted)
  · rcases h'.2 _ a' rfl hpaired' with
      haborted | ⟨hjourney', ps', a'', halone', hlegs', hplane', hpaired''⟩
    · exact .inl haborted
    · refine .inr ⟨hjourney.append hjourney', ps ++ ps', a'', halone.append halone', ?_,
        hplane'.trans hplane, hpaired''⟩
      rw [legsOf_append, hlegs, hlegs']
      rfl

/-- What happens to the task happens to the lookup alone, which need not do anything. -/
theorem accompanies_of
    (haborted : w.scheduler.tasks[id]? = some (.ended .aborted) →
      w'.scheduler.tasks[id]? = some (.ended .aborted))
    (hpaired : ∀ s a, s.world = w → Paired k id s a →
      s.Passes w' ∧ Paired k id { s with world := w' } a) : Accompanies k id w w' := by
  refine ⟨haborted, fun s a hworld hs => .inr ?_⟩
  obtain ⟨hpasses, hpaired'⟩ := hpaired s a hworld hs
  exact ⟨.passes .here hpasses, [], a, .refl _ a, rfl, rfl, hpaired'⟩

theorem accompanies_agrees (hagrees : w.scheduler.Agrees id w'.scheduler) :
    Accompanies k id w w' := by
  refine accompanies_of (fun haborted => hagrees.task.trans haborted) fun s a hworld hpaired => ?_
  subst hworld
  have hstays := hpaired.joint.agrees hagrees
  exact ⟨hstays.passes,
    { hpaired with
      joint := hstays.attached
      wakes := hpaired.wakes.trans hagrees.wakes.symm
      now := hpaired.now.trans hagrees.now.symm
      token := hpaired.token.trans
        (Scheduler.isCancelled_congr hagrees.cancelled s.lookup.token).symm }⟩

/-- The world after the token is cancelled. -/
def withCancelled (token : String) (a : World) : World :=
  { a with scheduler := a.scheduler.cancel token }

theorem Paired.cancel_own {s : Scene} {a : World} {token : String} (hpaired : Paired k id s a)
    (hscheduler : w.scheduler = s.world.scheduler.cancel token)
    (hown : s.lookup.token = some token) :
    Paired k id { s with world := w } (withCancelled token a) := by
  have hrouse := Scheduler.cancel_eq token a.scheduler
  have hrouse' := hscheduler.trans (Scheduler.cancel_eq token s.world.scheduler)
  have hstays := hpaired.joint.cancel hscheduler
  have hstays' : Stays 0 0 { s with world := a } (withCancelled token a) :=
    hpaired.alone.cancel rfl
  have hmem : ∀ r : Scheduler, (r.cancel token).isCancelled (some token) = true := fun r =>
    List.contains_iff_mem.mpr (List.mem_cons_self ..)
  constructor
  case joint => exact hstays.attached
  case alone => exact hstays'.attached
  case wakes =>
    have hwoken := hpaired.wakes_rouse (fun n => n.2 = some token) .token
    show (a.scheduler.cancel token).wakes 0 = w.scheduler.wakes id
    rw [hrouse, hrouse']
    exact hwoken
  case now =>
    show a.scheduler.now = w.scheduler.now
    rw [hscheduler]
    exact hpaired.now
  case token =>
    show (a.scheduler.cancel token).isCancelled s.lookup.token =
      w.scheduler.isCancelled s.lookup.token
    rw [hscheduler, hown, hmem, hmem]
  case queue =>
    intro e he
    rw [withCancelled, hrouse] at he
    rcases List.mem_append.mp he with hold | hnew
    · exact hpaired.queue e hold
    · obtain ⟨n, hn, rfl⟩ := List.mem_map.mp hnew
      exact hpaired.sleepers n (List.mem_filter.mp hn).1
  case sleepers =>
    intro n hn
    rw [withCancelled, hrouse] at hn
    exact hpaired.sleepers n (List.mem_filter.mp hn).1

theorem tokenOf_cases (l : Lookup) (phase : LookupPhase) :
    World.tokenOf l phase = none ∨ World.tokenOf l phase = l.token := by
  cases phase with
  | probing p => exact .inl rfl
  | backingOff n => exact .inr rfl

/-- A task does not wait for a token that is not the one of its lookup. -/
theorem Attached.deaf {s : Scene} {token : String} (hattached : Attached k id s)
    (hother : s.lookup.token ≠ some token) :
    ∀ n ∈ s.world.scheduler.waits id, n.token ≠ some token := by
  intro n hn
  cases hattached with
  | queued _ _ hwaits => rw [hwaits] at hn; cases hn
  | ended _ _ hwaits => rw [hwaits] at hn; cases hn
  | @asleep phase due _ _ hwaits =>
      rw [hwaits] at hn
      obtain rfl := List.mem_singleton.mp hn
      rcases tokenOf_cases s.lookup phase with hlistens | hlistens
      · rw [hlistens]
        exact nofun
      · rw [hlistens]
        exact hother

/-- So it is not woken by it. -/
theorem Attached.cancel_agrees {s : Scene} {token : String} (hattached : Attached k id s)
    (hother : s.lookup.token ≠ some token) :
    (s.world.scheduler.cancel token).wakes id = s.world.scheduler.wakes id
      ∧ (s.world.scheduler.cancel token).waits id = s.world.scheduler.waits id := by
  have hdeaf := hattached.deaf hother
  have hnone : (s.world.scheduler.waits id).filter (·.token = some token) = [] :=
    List.filter_eq_nil_iff.mpr fun n hn h => hdeaf n hn (of_decide_eq_true h)
  have hall : (s.world.scheduler.waits id).filter (fun n => !decide (n.token = some token)) =
      s.world.scheduler.waits id :=
    List.filter_eq_self.mpr fun n hn => by simp [hdeaf n hn]
  rw [Scheduler.cancel_eq]
  constructor
  · refine (Scheduler.wakes_rouse ..).trans ?_
    rw [hnone]
    exact List.append_nil _
  · exact (Scheduler.waits_rouse id _ .token _).trans hall

theorem Paired.cancel_other {s : Scene} {a : World} {token : String} (hpaired : Paired k id s a)
    (hscheduler : w.scheduler = s.world.scheduler.cancel token)
    (hother : s.lookup.token ≠ some token) : Paired k id { s with world := w } a := by
  have hstays := hpaired.joint.cancel hscheduler
  constructor
  case joint => exact hstays.attached
  case alone => exact hpaired.alone
  case wakes =>
    show _ = w.scheduler.wakes id
    rw [hscheduler, (hpaired.joint.cancel_agrees hother).1]
    exact hpaired.wakes
  case now =>
    show a.scheduler.now = w.scheduler.now
    rw [hscheduler]
    exact hpaired.now
  case token =>
    refine hpaired.token.trans ?_
    show s.world.scheduler.isCancelled s.lookup.token = w.scheduler.isCancelled s.lookup.token
    rw [hscheduler]
    cases hlistens : s.lookup.token with
    | none => rfl
    | some t =>
        have hne : t ≠ token := fun heq => hother (hlistens.trans (congrArg some heq))
        simp [Scheduler.isCancelled, Scheduler.cancel, hne]
  case queue => exact hpaired.queue
  case sleepers => exact hpaired.sleepers

theorem accompanies_cancel {token : String} (hscheduler : w'.scheduler = w.scheduler.cancel token) :
    Accompanies k id w w' := by
  refine ⟨fun haborted => by rw [hscheduler]; exact haborted, fun s a hworld hpaired => .inr ?_⟩
  subst hworld
  have hpasses := (hpaired.joint.cancel hscheduler).passes
  refine ⟨.passes .here hpasses, ?_⟩
  by_cases hown : s.lookup.token = some token
  · have hcall := Interleaving.start.call (w := a) (s := .cancel token none) fun h => h
    refine ⟨_, withCancelled token a, ⟨hcall, ?_⟩, rfl, rfl, hpaired.cancel_own hscheduler hown⟩
    intro p hp
    obtain rfl := List.mem_singleton.mp hp
    exact ⟨token, hown, rfl⟩
  · exact ⟨[], a, .refl _ a, rfl, rfl, hpaired.cancel_other hscheduler hown⟩

theorem accompanies_leaves (k : ClientId) (id : TaskId) : World.Leaves id (Accompanies k id) where
  trans := accompanies_trans
  agrees := accompanies_agrees
  cancel := accompanies_cancel
  spawn := by
    intro work w w' hspawn
    have hnone : w.scheduler.tasks[id]? = none :=
      Array.getElem?_eq_none_iff.mpr (Nat.le_of_eq (World.spawn_eq hspawn).2.1.symm)
    refine ⟨fun haborted => ?_, fun s a hworld hpaired => ?_⟩
    · rw [hnone] at haborted
      cases haborted
    · obtain ⟨task, htask⟩ := hpaired.joint.task
      rw [hworld, hnone] at htask
      cases htask
  shutDown := by
    intro w
    refine ⟨Scheduler.shutDown_ended, fun s a hworld hpaired => ?_⟩
    subst hworld
    cases hpaired.joint with
    | queued htask => exact .inl (Scheduler.shutDown_live htask)
    | asleep htask => exact .inl (Scheduler.shutDown_live htask)
    | ended htask hwakes hwaits hends =>
        refine .inr ⟨.passes .here (.happens rfl fun _ h => h), [], a, .refl _ a, rfl, rfl, ?_⟩
        exact
          { hpaired with
            joint := .ended (Scheduler.shutDown_ended htask) rfl rfl hends
            wakes := hpaired.wakes.trans hwakes }

/-- The clock moves for the lookup alone as well. -/
theorem accompanies_clock {time : Nat} (hqueue : w.scheduler.queue = [])
    (hfirst : ∀ n ∈ w.scheduler.sleepers, time ≤ n.due) :
    Accompanies k id w { w with scheduler := w.scheduler.moveTo time } := by
  refine ⟨fun haborted => haborted, fun s a hworld hpaired => .inr ?_⟩
  subst hworld
  have hnone : a.scheduler.wakes 0 = [] := by
    rw [hpaired.wakes, Scheduler.wakes, hqueue]
    rfl
  have hqueue' : a.scheduler.queue = [] := by rw [hpaired.queue_eq, hnone]; rfl
  -- What the lookup alone waits for, the other one waits for too.
  have hfirst' : ∀ n ∈ a.scheduler.sleepers, time ≤ n.due := by
    intro n hn
    have hmem : (n.due, n.token) ∈ (a.scheduler.waits 0).map fun n => (n.due, n.token) :=
      List.mem_map_of_mem (List.mem_filter.mpr ⟨hn, decide_eq_true (hpaired.sleepers n hn)⟩)
    rw [hpaired.waits] at hmem
    obtain ⟨m, hm, heq⟩ := List.mem_map.mp hmem
    have hdue : m.due = n.due := congrArg Prod.fst heq
    rw [← hdue]
    exact hfirst m (List.mem_filter.mp hm).1
  have hstays := hpaired.joint.clock hqueue hfirst
  have hstays' : Stays 0 0 { s with world := a }
      { a with scheduler := a.scheduler.moveTo time } := hpaired.alone.clock hqueue' hfirst'
  have hrouse := Scheduler.moveTo_eq time a.scheduler
  have hrouse' := Scheduler.moveTo_eq time s.world.scheduler
  have hnow : Nat.max a.scheduler.now time = Nat.max s.world.scheduler.now time :=
    congrArg (Nat.max · time) hpaired.now
  have hpaired' : Paired k id
      { s with world := { s.world with scheduler := s.world.scheduler.moveTo time } }
      { a with scheduler := a.scheduler.moveTo time } := by
    constructor
    case joint => exact hstays.attached
    case alone => exact hstays'.attached
    case wakes =>
      have hwoken := hpaired.wakes_rouse (fun n => n.1 ≤ Nat.max s.world.scheduler.now time) .timer
      show (a.scheduler.moveTo time).wakes 0 = (s.world.scheduler.moveTo time).wakes id
      rw [hrouse, hrouse', hnow]
      exact hwoken
    case now => exact hnow
    case token => exact hpaired.token
    case queue =>
      intro e he
      rw [hrouse] at he
      rcases List.mem_append.mp he with hold | hnew
      · exact hpaired.queue e hold
      · obtain ⟨n, hn, rfl⟩ := List.mem_map.mp hnew
        exact hpaired.sleepers n (List.mem_filter.mp hn).1
    case sleepers =>
      intro n hn
      rw [hrouse] at hn
      exact hpaired.sleepers n (List.mem_filter.mp hn).1
  refine ⟨.passes .here hstays.passes, _, _, ⟨Interleaving.start.clock hqueue' hfirst', ?_⟩, rfl,
    rfl, hpaired'⟩
  intro p hp
  obtain rfl := List.mem_singleton.mp hp
  exact ⟨_, rfl⟩

/-! ## A turn of the lookup -/

/-- After a run of a lookup the scheduler holds nothing new, save that the task may sleep. -/
theorem lookupRun_scheduler {g : Leg} (hrun : World.LookupRun k id g w) :
    w.scheduler.queue = g.world.scheduler.queue ∧ w.scheduler.now = g.world.scheduler.now
      ∧ w.scheduler.cancelled = g.world.scheduler.cancelled
      ∧ ∀ n ∈ w.scheduler.sleepers, n ∈ g.world.scheduler.sleepers ∨ n.task = id := by
  cases hrun with
  | waits _ _ hscheduler =>
      rw [hscheduler]
      refine ⟨rfl, rfl, rfl, fun n hn => ?_⟩
      rcases List.mem_append.mp hn with hold | hnew
      · exact .inl hold
      · exact .inr (congrArg Sleeper.task (List.mem_singleton.mp hnew))
  | faults _ _ hscheduler => rw [hscheduler]; exact ⟨rfl, rfl, rfl, fun _ hn => .inl hn⟩
  | fails _ _ hscheduler => rw [hscheduler]; exact ⟨rfl, rfl, rfl, fun _ hn => .inl hn⟩
  | refused _ _ _ hscheduler => rw [hscheduler]; exact ⟨rfl, rfl, rfl, fun _ hn => .inl hn⟩
  | applied _ _ _ _ hscheduler => rw [hscheduler]; exact ⟨rfl, rfl, rfl, fun _ hn => .inl hn⟩

/-- A lookup whose control plane has the course of a leg next meets it in the same leg. -/
theorem course?_solitary {g g' : Leg} {rest : List ProbeCourse} (hlookup : g'.lookup = g.lookup)
    (hphase : g'.phase = g.phase) (hwake : g'.wake = g.wake)
    (hcancelled : g'.cancelled = g.cancelled)
    (hscript : g'.world.plane.script = g.course?.toList ++ rest) :
    g'.course? = g.course? ∧ g'.after.plane.script = rest := by
  obtain ⟨w, l, phase, wake⟩ := g
  obtain ⟨a, l', phase', wake'⟩ := g'
  obtain rfl : l' = l := hlookup
  obtain rfl : phase' = phase := hphase
  obtain rfl : wake' = wake := hwake
  have hcourse : Leg.course? ⟨a, l', phase', wake'⟩ = Leg.course? ⟨w, l', phase', wake'⟩ := by
    rcases begins_or phase' wake' with hbegins | ⟨p, rfl⟩ | ⟨n, rfl, rfl⟩
    · have hmeets := Leg.course?_of_begins (g := ⟨w, l', phase', wake'⟩) hbegins
      rw [Leg.course?_of_begins hbegins, hcancelled]
      split
      · next hstops => rw [hmeets, if_pos hstops]
      · next hgoes =>
        rw [hmeets, if_neg hgoes] at hscript ⊢
        dsimp only at hscript
        simp only [ControlPlane.take, hscript]
        rfl
    · rfl
    · rfl
  refine ⟨hcourse, ?_⟩
  rw [Leg.plane_after, hcourse]
  cases hmeets : Leg.course? ⟨w, l', phase', wake'⟩ with
  | none =>
      rw [hmeets] at hscript
      exact hscript
  | some c =>
      rw [hmeets] at hscript
      dsimp only at hscript
      simp only [Option.elim, ControlPlane.take, hscript]
      rfl

/-- Of a turn the run alone is a leg. -/
theorem legsOf_turn (id : TaskId) (w w' : World) (p : Passage) :
    legsOf id [⟨w, .surroundings, w'⟩, p] = legsOf id [p] := by
  have hpop : ¬ Passage.By ⟨w, .surroundings, w'⟩ id := nofun
  rw [← List.singleton_append, legsOf_append, legsOf_other hpop, List.nil_append]

/-- A turn of the lookup is a turn of the lookup alone, which does the same. -/
theorem Paired.turn {s : Scene} {a : World} {queue : List (TaskId × Wake)}
    {phase : Option LookupPhase} {wake : Wake} {rest : List ProbeCourse}
    (hpaired : Paired k id s a) (hturned : Turned k id s queue phase wake)
    (hscript : a.plane.script = ((s.withQueue queue).leg phase wake).course?.toList ++ rest) :
    ∃ ps a' g', Alone s.lookup.token a ps a' ∧ legsOf 0 ps = [g']
      ∧ ((s.withQueue queue).leg phase wake).Same g' ∧ a'.plane.script = rest
      ∧ Paired k id
          { (s.withQueue queue).ran phase wake with
            world := (s.withQueue queue).world.runTask id wake } a' := by
  have hqueue : a.scheduler.queue = [] ++ (0, wake) :: [] := by
    rw [hpaired.queue_eq, hpaired.wakes, hturned.wakes]
    rfl
  obtain ⟨phase', halone⟩ := hpaired.alone.turn hqueue
  obtain rfl : phase' = phase := hturned.ready.onward.unique halone.ready.onward
  have htask : (a.withQueue []).scheduler.tasks[0]? = some (.live (.lookup 0 s.lookup phase')) :=
    halone.task
  have hrun := World.runTask_lookup htask wake
  have hrun' := World.runTask_lookup (w := (s.withQueue queue).world) hturned.task wake
  obtain ⟨hqueued, hnow, hcancelled, hsleepers⟩ := lookupRun_scheduler hrun
  obtain ⟨hqueued', hnow', hcancelled', -⟩ := lookupRun_scheduler hrun'
  obtain ⟨hcourse, hrest⟩ :
      Leg.course? ⟨a.withQueue [], s.lookup, phase', wake⟩ =
          ((s.withQueue queue).leg phase' wake).course?
        ∧ (Leg.after ⟨a.withQueue [], s.lookup, phase', wake⟩).plane.script = rest :=
    course?_solitary rfl rfl rfl hpaired.token hscript
  have hsame : Leg.Same ((s.withQueue queue).leg phase' wake)
      ⟨a.withQueue [], s.lookup, phase', wake⟩ :=
    ⟨rfl, rfl, rfl, hpaired.now, hpaired.token, hcourse,
      Leg.step_congr rfl rfl rfl hpaired.token hcourse⟩
  have hplane := (World.runTask_plane htask wake).trans
    (World.runLookup_plane 0 s.lookup phase' wake (a.withQueue []))
  refine ⟨[⟨a, .surroundings, a.withQueue []⟩,
      ⟨a.withQueue [], .task 0 wake, (a.withQueue []).runTask 0 wake⟩], _, _,
    ⟨Interleaving.start.turn [] [] hqueue, fun p hp => ?_⟩, ?_, hsame,
    (congrArg ControlPlane.script hplane).trans hrest, ?_⟩
  · rcases List.mem_cons.mp hp with rfl | hlast
    · exact ⟨_, rfl⟩
    · obtain rfl := List.mem_singleton.mp hlast
      rfl
  · rw [legsOf_turn, legsOf_own rfl htask]
  · constructor
    case joint => exact hturned.stays.attached
    case alone =>
      have hstands := halone.stays.attached
      have hlookup : (Leg.step ⟨a.withQueue [], s.lookup, phase', wake⟩).lookup =
          ((s.withQueue queue).leg phase' wake).step.lookup := congrArg LookupStep.lookup hsame.step
      have hplace := hsame.arrival
      unfold Scene.ran at hstands ⊢
      rw [← hlookup, ← hplace]
      exact hstands
    case wakes =>
      show ((a.withQueue []).runTask 0 wake).scheduler.wakes 0 =
        ((s.withQueue queue).world.runTask id wake).scheduler.wakes id
      rw [Scheduler.wakes, Scheduler.wakes, hqueued, hqueued']
      exact halone.idle.trans hturned.idle.symm
    case now => exact hnow.trans (Eq.trans hpaired.now hnow'.symm)
    case token =>
      have htoken := Leg.step_token ((s.withQueue queue).leg phase' wake)
      show ((a.withQueue []).runTask 0 wake).scheduler.isCancelled
          ((s.withQueue queue).leg phase' wake).step.lookup.token =
        ((s.withQueue queue).world.runTask id wake).scheduler.isCancelled
          ((s.withQueue queue).leg phase' wake).step.lookup.token
      rw [htoken, Scheduler.isCancelled_congr hcancelled, Scheduler.isCancelled_congr hcancelled']
      exact hpaired.token
    case queue =>
      intro e he
      have hnone : e ∈ (a.withQueue []).scheduler.queue := hqueued ▸ he
      cases hnone
    case sleepers =>
      intro n hn
      rcases hsleepers n hn with hold | hown
      · exact hpaired.sleepers n hold
      · exact hown

/-! ## Along an interleaving -/

/-- At a point of an interleaving the legs of the task `id` are a journey of its lookup, and alone,
against the courses that these legs met, the lookup makes the same legs and comes to stand at the
same place. -/
structure Projects (k : ClientId) (id : TaskId) (l : Lookup) (w₁ : World) (ps : List Passage)
    (s : Scene) : Prop where
  journey : Journey ⟨w₁, l, .called⟩ (legsOf id ps) s
  alone : ∀ rest, ∃ ps' a,
    Alone l.token (solitary l (courses (legsOf id ps) ++ rest) w₁.scheduler) ps' a
      ∧ List.Forall₂ Leg.Same (legsOf id ps) (legsOf 0 ps') ∧ a.plane.script = rest
      ∧ Paired k id s a

variable {l : Lookup} {w₁ : World} {ps : List Passage} {s : Scene}

theorem Projects.joint (hprojects : Projects k id l w₁ ps s) : Attached k id s := by
  obtain ⟨_, _, _, _, _, hpaired⟩ := hprojects.alone []
  exact hpaired.joint

theorem projects_called (hattached : Attached k id ⟨w₁, l, .called⟩) :
    Projects k id l w₁ [] ⟨w₁, l, .called⟩ := by
  refine ⟨.here, fun rest => ⟨[], _, .refl _ _, .nil, rfl, ?_⟩⟩
  constructor
  case joint => exact hattached
  case alone => exact .queued rfl rfl rfl (.called rfl)
  case wakes =>
    cases hattached with
    | queued _ hwakes _ hready =>
        rw [hwakes]
        cases hready with
        | called => rfl
        | timer hplace => cases hplace
        | token hplace => cases hplace
    | asleep _ _ _ hplace => cases hplace
    | ended _ _ _ hends => cases hends
  case now => rfl
  case token => exact Scheduler.isCancelled_congr rfl l.token
  case queue =>
    intro e he
    obtain rfl := List.mem_singleton.mp he
    rfl
  case sleepers => exact fun n hn => (List.not_mem_nil hn).elim

/-- Where the task has no turn, the lookup alone keeps up. -/
theorem Projects.accompanied {ps' : List Passage} (hprojects : Projects k id l w₁ ps s)
    (haccompanies : Accompanies k id s.world w') (hlegs : legsOf id ps' = [])
    (hgoes : w'.scheduler.tasks[id]? ≠ some (.ended .aborted)) :
    Projects k id l w₁ (ps ++ ps') { s with world := w' } := by
  have hkeepsUp := fun a hpaired => (haccompanies.2 s a rfl hpaired).resolve_left hgoes
  have hlegs' : legsOf id (ps ++ ps') = legsOf id ps := by
    rw [legsOf_append, hlegs, List.append_nil]
  have htoken : s.lookup.token = l.token := hprojects.journey.token_eq
  constructor
  case journey =>
    obtain ⟨-, a, -, -, -, hpaired⟩ := hprojects.alone []
    have hjourney := hprojects.journey.append (hkeepsUp a hpaired).1
    rw [List.append_nil] at hjourney
    rw [hlegs']
    exact hjourney
  case alone =>
    intro rest
    obtain ⟨past, a, halone, hsame, hscript, hpaired⟩ := hprojects.alone rest
    obtain ⟨-, more, a', halone', hnone, hplane, hpaired'⟩ := hkeepsUp a hpaired
    rw [htoken] at halone'
    rw [hlegs']
    refine ⟨past ++ more, a', halone.append halone', ?_, ?_, hpaired'⟩
    · rw [legsOf_append, hnone, List.append_nil]
      exact hsame
    · rw [hplane]
      exact hscript

theorem courses_singleton (g : Leg) : courses [g] = g.course?.toList := by
  cases hcourse : g.course? with
  | none => exact courses_none hcourse
  | some c => exact courses_some hcourse

/-- Where the task has a turn, the lookup alone has one too. -/
theorem Projects.turn {pre post : List (TaskId × Wake)} {wake : Wake}
    (hprojects : Projects k id l w₁ ps s)
    (hqueue : s.world.scheduler.queue = pre ++ (id, wake) :: post) :
    ∃ s', s'.world = (s.world.withQueue (pre ++ post)).runTask id wake
      ∧ Projects k id l w₁
          (ps ++ [⟨s.world, .surroundings, s.world.withQueue (pre ++ post)⟩,
            ⟨s.world.withQueue (pre ++ post), .task id wake,
              (s.world.withQueue (pre ++ post)).runTask id wake⟩]) s' := by
  obtain ⟨phase, hturned⟩ := hprojects.joint.turn hqueue
  have hlegs : legsOf id [⟨s.world, .surroundings, s.world.withQueue (pre ++ post)⟩,
      ⟨s.world.withQueue (pre ++ post), .task id wake,
        (s.world.withQueue (pre ++ post)).runTask id wake⟩] =
      [(s.withQueue (pre ++ post)).leg phase wake] := by
    rw [legsOf_turn, legsOf_own rfl hturned.task]
    rfl
  refine ⟨{ (s.withQueue (pre ++ post)).ran phase wake with
      world := (s.withQueue (pre ++ post)).world.runTask id wake }, rfl, ?_, fun rest => ?_⟩
  · rw [legsOf_append, hlegs]
    exact ((hprojects.journey.passes hturned.passes).runs hturned.ready).passes hturned.stays.passes
  · obtain ⟨past, a, halone, hsame, hscript, hpaired⟩ :=
      hprojects.alone (((s.withQueue (pre ++ post)).leg phase wake).course?.toList ++ rest)
    obtain ⟨more, a', g', halone', hlegs', hsame', hscript', hpaired'⟩ :=
      hpaired.turn hturned hscript
    rw [hprojects.journey.token_eq] at halone'
    rw [legsOf_append, hlegs, courses_append, courses_singleton, List.append_assoc]
    refine ⟨past ++ more, a', halone.append halone', ?_, hscript', hpaired'⟩
    rw [legsOf_append, hlegs']
    exact List.rel_append hsame (.cons hsame' .nil)

theorem legsOf_ended {p : Passage} {ending : Ending}
    (hended : p.before.scheduler.tasks[id]? = some (.ended ending)) : legsOf id [p] = [] := by
  have hnone : p.leg? id = none := by
    unfold Passage.leg?
    split
    · next hlive =>
      rw [hended] at hlive
      cases hlive
    · rfl
  simp only [legsOf, List.filterMap_cons, hnone, List.filterMap_nil]

/-- Whatever the interleaving, or the task has been aborted and its legs were a journey. -/
theorem projects_or_aborted {w : World} (hattached : Attached k id ⟨w₁, l, .called⟩)
    (hrun : Interleaving w₁ ps w) :
    (∃ s, s.world = w ∧ Projects k id l w₁ ps s)
      ∨ w.scheduler.tasks[id]? = some (.ended .aborted)
        ∧ ∃ s, Journey ⟨w₁, l, .called⟩ (legsOf id ps) s := by
  have hleaves := accompanies_leaves k id
  -- What happens while the task has no turn.
  have hother : ∀ {ps ps' : List Passage} {w w' : World},
      ((∃ s, s.world = w ∧ Projects k id l w₁ ps s)
        ∨ w.scheduler.tasks[id]? = some (.ended .aborted)
          ∧ ∃ s, Journey ⟨w₁, l, .called⟩ (legsOf id ps) s) →
      legsOf id ps' = [] → Accompanies k id w w' →
      (∃ s, s.world = w' ∧ Projects k id l w₁ (ps ++ ps') s)
        ∨ w'.scheduler.tasks[id]? = some (.ended .aborted)
          ∧ ∃ s, Journey ⟨w₁, l, .called⟩ (legsOf id (ps ++ ps')) s := by
    intro ps ps' w w' hbefore hlegs haccompanies
    have hsame : legsOf id (ps ++ ps') = legsOf id ps := by
      rw [legsOf_append, hlegs, List.append_nil]
    rcases hbefore with ⟨s, rfl, hprojects⟩ | ⟨haborted, hjourney⟩
    · by_cases haborted : w'.scheduler.tasks[id]? = some (.ended .aborted)
      · exact .inr ⟨haborted, s, hsame ▸ hprojects.journey⟩
      · exact .inl ⟨_, rfl, hprojects.accompanied haccompanies hlegs haborted⟩
    · exact .inr ⟨haccompanies.1 haborted, hsame ▸ hjourney⟩
  induction hrun with
  | start => exact .inl ⟨_, rfl, projects_called hattached⟩
  | call _ hwaits ih => exact hother ih (legsOf_other nofun) (hleaves.call _ hwaits)
  | aside _ haside ih => exact hother ih (legsOf_other nofun) (hleaves.frame.aside haside)
  | clock _ hqueue hfirst ih =>
      exact hother ih (legsOf_other nofun) (accompanies_clock hqueue hfirst)
  | @turn ps w' id' wake pre post _ hqueue ih =>
      by_cases hown : id' = id
      · subst hown
        rcases ih with ⟨s, rfl, hprojects⟩ | ⟨haborted, hjourney⟩
        · exact .inl (hprojects.turn hqueue)
        · refine .inr ⟨(World.Passes.task id' wake).ended haborted, ?_⟩
          rw [legsOf_append, legsOf_turn, legsOf_ended haborted, List.append_nil]
          exact hjourney
      · refine hother ih ?_ (hleaves.turn pre post hown hqueue)
        rw [legsOf_turn]
        refine legsOf_other fun ⟨wake', hmover⟩ => hown ?_
        cases hmover
        rfl

/-- Whatever the interleaving, as long as nobody shuts down. -/
theorem projects_interleaving {w : World} (hattached : Attached k id ⟨w₁, l, .called⟩)
    (hrun : Interleaving w₁ ps w) (hsteady : Steady ps) :
    ∃ s, s.world = w ∧ Projects k id l w₁ ps s := by
  obtain ⟨task, htask, hgoes⟩ : ∃ task, w₁.scheduler.tasks[id]? = some task
      ∧ task ≠ .ended .aborted := by
    cases hattached with
    | queued htask => exact ⟨_, htask, nofun⟩
    | asleep htask => exact ⟨_, htask, nofun⟩
    | ended _ _ _ hends => cases hends
  refine (projects_or_aborted hattached hrun).resolve_right fun haborted => ?_
  exact hrun.history.not_aborted hsteady htask hgoes haborted.1

end

/-! ## What is not shared -/

theorem Trail.alike {l₀ l : Lookup} {legs : List Leg} {place : Place}
    (htrail : Trail l₀ legs l place) : l₀.Alike l ∧ ∀ g ∈ legs, l₀.Alike g.lookup := by
  induction htrail with
  | called => exact ⟨⟨rfl, rfl⟩, fun _ hg => (List.not_mem_nil hg).elim⟩
  | @leg legs l place phase w wake _ _ ih =>
      obtain ⟨halike, hlegs⟩ := ih
      refine ⟨halike.trans (Leg.step_lookup ⟨w, l, phase, wake⟩), fun g hg => ?_⟩
      rcases List.mem_append.mp hg with hold | hnew
      · exact hlegs g hold
      · obtain rfl := List.mem_singleton.mp hnew
        exact halike

/-- What a lookup does not share: a turn of another lookup leaves all that the scheduler holds of
its task, the clock and the tokens as they are, and a token that is not its own changes nothing
about its task. -/
structure Undisturbed (id : TaskId) (l : Lookup) (w : World) : Prop where
  turns : ∀ {id' : TaskId} {k : ClientId} {l' : Lookup} {phase : Option LookupPhase}, id' ≠ id →
    w.scheduler.tasks[id']? = some (.live (.lookup k l' phase)) →
      ∀ wake, w.scheduler.Agrees id (w.runTask id' wake).scheduler
  cancels : ∀ token, l.token ≠ some token →
    (w.scheduler.cancel token).tasks[id]? = w.scheduler.tasks[id]?
      ∧ (w.scheduler.cancel token).wakes id = w.scheduler.wakes id
      ∧ (w.scheduler.cancel token).waits id = w.scheduler.waits id

theorem agrees_runTask {id id' : TaskId} {k : ClientId} {l : Lookup} {phase : Option LookupPhase}
    {w : World} (hne : id' ≠ id)
    (htask : w.scheduler.tasks[id']? = some (.live (.lookup k l phase))) (wake : Wake) :
    w.scheduler.Agrees id (w.runTask id' wake).scheduler := by
  rw [World.runTask_scheduler htask, World.run, World.runLookup_scheduler]
  exact Scheduler.agrees_settle hne _ _

theorem Attached.undisturbed {k : ClientId} {id : TaskId} {s : Scene}
    (hattached : Attached k id s) : Undisturbed id s.lookup s.world where
  turns := fun hne htask wake => agrees_runTask hne htask wake
  cancels := by
    intro token hother
    exact ⟨rfl, hattached.cancel_agrees hother⟩

/-- **Lookups that run together run as if alone.** Take any interleaving in which a client starts a
lookup, and any interleaving from there without a shutdown: other lookups of the client, their
failures, successes and cancellations, and any order of all their turns. Then

* the lookup has the backoff of the client at the call and a counter of its own, and it stands where
  a journey of its legs has led;
* alone, against the courses that its own probes met, it makes the same legs: each at the same time,
  with the same attempt number, delay and report;
* each of its waits is the one that this backoff has for the attempt that failed, and while its
  token is not cancelled its attempts are numbered one by one;
* no turn of another lookup and no token but its own touches what the scheduler holds of it. -/
theorem lookups_run_as_alone {ps₀ ps : List Passage} {w₀ w₁ w : World} {h : String}
    {token : Option String} {finished : Bool} {id : TaskId} (hbefore : Interleaving {} ps₀ w₀)
    (hcall : w₀.perform (.discover h token) = (w₁, .lookupStarted finished))
    (hhandle : w₁.handle? h = some (.lookup (.task id))) (hafter : Interleaving w₁ ps w)
    (hsteady : Steady ps) :
    ∃ l s, w₀.client.lookup token = .ok l ∧ l.backoff = w₀.client.backoff ∧ l.retry = {}
      ∧ s.world = w ∧ Projects w₀.current id l w₁ ps s
      ∧ (∀ g ∈ legsOf id ps, ∀ n ms, g.step.next = .wait (.backingOff n) ms →
        ms = w₀.client.backoff.delayFor n)
      ∧ (s.cancelled = false →
        (∀ cs, cs <+: courses (legsOf id ps) → AllFail cs → cs.length < UInt32.size) →
          InTime l w₁.scheduler.now (legsOf id ps) s)
      ∧ Undisturbed id s.lookup w := by
  have hvacant := (World.vacant_concerns w₀.scheduler.tasks.size).interleaving hbefore
    fun _ => ⟨rfl, rfl⟩
  obtain ⟨l, hlookup, hattached⟩ := attached_of_discover hvacant hcall hhandle
  obtain ⟨hbackoff, hfresh⟩ : l.backoff = w₀.client.backoff ∧ l.retry = {} := by
    obtain ⟨credential, -, rfl⟩ := Client.lookup_ok hlookup
    exact ⟨rfl, rfl⟩
  obtain ⟨s, rfl, hprojects⟩ := projects_interleaving hattached hafter hsteady
  refine ⟨l, s, hlookup, hbackoff, hfresh, rfl, hprojects, fun g hg n ms hnext => ?_,
    journey_inTime hprojects.journey hfresh, hprojects.joint.undisturbed⟩
  rw [Leg.backs_off hnext, ← hbackoff]
  exact congrArg (Backoff.delayFor · n) (hprojects.journey.trail.alike.2 g hg).backoff

/-- A client that has started a lookup. The next probe fails, and the one after it finds four
shards. -/
def sharedPlane : World :=
  (((World.perform {} (.set (.token "tok"))).1.perform
    (.answers [{ query := .refusal (.connection "down") },
      { query := .answer ⟨"gateway", 4⟩ }])).1.perform (.discover "first" none)).1

/-- It starts a second lookup, which has its turn first, fails and waits; meanwhile the first one
finds the shards. -/
theorem lookups_run_as_alone_overtaking :
    ∃ ps₀ ps w, Interleaving {} ps₀ sharedPlane
      ∧ Interleaving (sharedPlane.perform (.discover "second" (some "t"))).1 ps w ∧ Steady ps
      ∧ w.scheduler.ending? 0 = some (.returned (.ok (.total 4)))
      ∧ (legsOf 1 ps).length = 1
      ∧ ∃ l s, Projects 0 1 l (sharedPlane.perform (.discover "second" (some "t"))).1 ps s
        ∧ s.world = w := by
  have hbefore : ∃ ps₀, Interleaving {} ps₀ sharedPlane :=
    ⟨_, ((Interleaving.start.call (s := .set (.token "tok")) (fun h => h)).call
      (s := .answers [{ query := .refusal (.connection "down") },
        { query := .answer ⟨"gateway", 4⟩ }]) (fun h => h)).call
      (s := .discover "first" none) (fun h => h)⟩
  have hafter : ∃ ps w, Interleaving (sharedPlane.perform (.discover "second" (some "t"))).1 ps w
      ∧ Steady ps ∧ w.scheduler.ending? 0 = some (.returned (.ok (.total 4)))
      ∧ (legsOf 1 ps).length = 1 := by
    refine ⟨_, _, (Interleaving.start.turn [(0, .started)] [] rfl).turn [] [] rfl, ?_, rfl, rfl⟩
    exact (steady_cons.mpr ⟨rfl, steady_cons.mpr ⟨rfl, steady_nil⟩⟩).append
      (steady_cons.mpr ⟨rfl, steady_cons.mpr ⟨rfl, steady_nil⟩⟩)
  obtain ⟨ps₀, hbefore⟩ := hbefore
  obtain ⟨ps, w, hafter, hsteady, hending, hlegs⟩ := hafter
  obtain ⟨l, s, -, -, -, hworld, hprojects, -⟩ :=
    lookups_run_as_alone hbefore (h := "second") rfl rfl hafter hsteady
  exact ⟨ps₀, ps, w, hbefore, hafter, hsteady, hending, hlegs, l, s, hprojects, hworld⟩

end Lookup

end GatewayClient
