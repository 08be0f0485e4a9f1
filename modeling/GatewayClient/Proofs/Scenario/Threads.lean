import Mathlib.Data.List.Nodup
import GatewayClient.Proofs.Scenario.Application

/-!
# Histories on several threads

A lookup that found a recommendation writes the total of its client and then the endpoint, each
under a lock of its own. Where tasks run in parallel, the run in which it does so is two passages:
up to the first write (`World.enter`), and the second write (`World.leave`). In between there may be
calls, runs of other tasks and the writes of other lookups (`Parallel.History`).

On one thread nothing comes between. A run is one part right after the other
(`World.runTask_eq_enter`), so the histories of one thread are those histories in which a lookup
that is halfway goes on at once (`World.History.parallel`).
-/

namespace GatewayClient

/-- A lookup of a client that has written the total and not yet the endpoint. -/
structure Halfway where
  task : TaskId
  client : ClientId
  report : LookupReport

namespace World

/-! ## A run in two parts -/

/-- A run of a task as far as the first write. A lookup that writes a total is halfway then; every
other run is over. -/
def enter (id : TaskId) (wake : Wake) (w : World) : World × Option Halfway :=
  match w.scheduler.tasks[id]? with
  | some (.live (.lookup k l phase)) =>
    let (w₁, step) := w.stepLookup l phase wake
    match step.next with
    | .returned (.ok report) =>
      match w₁.writeTotal k report.recommendation with
      | .ok w₂ => (w₂, some ⟨id, k, report⟩)
      | .error _ => (w.runTask id wake, none)
    | _ => (w.runTask id wake, none)
  | _ => (w.runTask id wake, none)

/-- The second write of a lookup, with which its task ends. -/
def leave (h : Halfway) (w : World) : World :=
  let w := (w.writeEndpoint h.client h.report.recommendation).note (Client.applied h.report)
  let ending : Ending := .returned (.ok (.total h.report.recommendation.shardCount))
  { w with scheduler := w.scheduler.finish h.task ending }

variable {w : World} {id : TaskId} {k : ClientId} {l : Lookup} {phase : Option LookupPhase}

theorem enter_other
    (hother : ∀ k l phase, w.scheduler.tasks[id]? ≠ some (.live (.lookup k l phase)))
    (wake : Wake) : w.enter id wake = (w.runTask id wake, none) := by
  unfold enter
  split
  · next htask => exact absurd htask (hother _ _ _)
  · rfl

/-- The first part of a run of a lookup: the whole run, or the write of a total. -/
theorem enter_lookup (htask : w.scheduler.tasks[id]? = some (.live (.lookup k l phase)))
    (wake : Wake) :
    (w.enter id wake = (w.runTask id wake, none)
      ∧ ∀ report c, (Lookup.Leg.step ⟨w, l, phase, wake⟩).next = .returned (.ok report) →
        ((w.clients[k]?).getD {}).setTotalShards report.recommendation.shardCount ≠ .ok c)
      ∨ ∃ report c w₁, (Lookup.Leg.step ⟨w, l, phase, wake⟩).next = .returned (.ok report)
        ∧ ((w.clients[k]?).getD {}).setTotalShards report.recommendation.shardCount = .ok c
        ∧ w.enter id wake = (w₁, some ⟨id, k, report⟩)
        ∧ w.runTask id wake = w₁.leave ⟨id, k, report⟩
        ∧ w₁.clients = w.clients.setIfInBounds k c ∧ w₁.current = w.current
        ∧ w₁.scheduler = w.scheduler := by
  have haside := stepLookup_aside l phase wake w
  have hstep : Lookup.Leg.step ⟨w, l, phase, wake⟩ = (w.stepLookup l phase wake).2 := rfl
  rcases hlookup : w.stepLookup l phase wake with ⟨w₁, step⟩
  rw [hlookup] at haside hstep
  obtain ⟨⟨hclients, hcurrent⟩, hscheduler⟩ := haside
  rw [hstep]
  by_cases hwrites : ∃ report c, step.next = .returned (.ok report)
      ∧ ((w.clients[k]?).getD {}).setTotalShards report.recommendation.shardCount = .ok c
  · obtain ⟨report, c, hnext, hset⟩ := hwrites
    have htotal : w₁.writeTotal k report.recommendation =
        .ok { w₁ with clients := w₁.clients.setIfInBounds k c } := by
      rw [writeTotal, hclients, hset]
    refine .inr ⟨report, c, { w₁ with clients := w₁.clients.setIfInBounds k c }, hnext, hset, ?_,
      ?_, by rw [hclients], hcurrent, hscheduler⟩
    · simp only [enter, htask, hlookup, hnext, htotal]
    · simp only [runTask, htask, run, runLookup, hlookup, hnext, applyReport, htotal]
      rfl
  · have hnot := fun report c hnext hset => hwrites ⟨report, c, hnext, hset⟩
    refine .inl ⟨?_, hnot⟩
    unfold enter writeTotal
    simp only [htask, hlookup]
    split
    · next report hnext =>
      rw [hclients]
      cases hset : ((w.clients[k]?).getD {}).setTotalShards report.recommendation.shardCount with
      | error e => rfl
      | ok c => exact absurd hset (hnot report c hnext)
    · rfl

/-- What the first part of a run of any task comes to: the whole run, or that of a lookup which is
halfway and leaves the rest. -/
inductive Entered (w : World) (id : TaskId) (wake : Wake) : World × Option Halfway → Prop
  | whole : Entered w id wake (w.runTask id wake, none)
  | half {k : ClientId} {l : Lookup} {phase : Option LookupPhase} {report : LookupReport}
      {c : Client} {w₁ : World} : w.scheduler.tasks[id]? = some (.live (.lookup k l phase)) →
      w.runTask id wake = w₁.leave ⟨id, k, report⟩ →
      w₁.clients = w.clients.setIfInBounds k c → w₁.scheduler = w.scheduler →
      Entered w id wake (w₁, some ⟨id, k, report⟩)

theorem enter_entered (id : TaskId) (wake : Wake) (w : World) :
    w.Entered id wake (w.enter id wake) := by
  by_cases hlookup : ∃ k l phase, w.scheduler.tasks[id]? = some (.live (.lookup k l phase))
  · obtain ⟨k, l, phase, htask⟩ := hlookup
    rcases enter_lookup htask wake with
      ⟨hwhole, -⟩ | ⟨report, c, w₁, -, -, hpart, hrun, hclients, -, hscheduler⟩
    · rw [hwhole]
      exact .whole
    · rw [hpart]
      exact .half htask hrun hclients hscheduler
  · rw [enter_other fun k l phase htask => hlookup ⟨k, l, phase, htask⟩]
    exact .whole

/-- A run is both parts, one right after the other. -/
theorem runTask_eq_enter (id : TaskId) (wake : Wake) (w : World) :
    w.runTask id wake =
      (w.enter id wake).2.elim (w.enter id wake).1 (w.enter id wake).1.leave := by
  have hentered := w.enter_entered id wake
  generalize w.enter id wake = r at hentered ⊢
  cases hentered with
  | whole => rfl
  | half _ hrun => exact hrun

/-- Tasks that were there are as they were. -/
def KeepsAll (w w' : World) : Prop :=
  ∀ (id : TaskId) (task : Task), w.scheduler.tasks[id]? = some task →
    w'.scheduler.tasks[id]? = some task

theorem keepsAll_of_eq {w w' : World} (htasks : w'.scheduler.tasks = w.scheduler.tasks) :
    w.KeepsAll w' := fun _ _ htask => htasks ▸ htask

theorem keepsAll_frame : LiveFrame KeepsAll where
  trans := fun h h' id task htask => h' id task (h id task htask)
  aside := fun haside => keepsAll_of_eq (by rw [haside.scheduler])
  spawn := by
    intro work w w' id₀ _ hspawn id task htask
    have hlt := (Array.getElem?_eq_some_iff.mp htask).1
    rw [(spawn_eq hspawn).2.2]
    dsimp only
    rw [Array.getElem?_push_lt hlt, ← htask]
    exact (Array.getElem?_eq_getElem hlt).symm
  cancel := fun _ _ => keepsAll_of_eq rfl

/-- Only a shutdown changes a task that is there. -/
theorem perform_keepsAll (w : World) {s : Step} (hwaits : ¬ s.Waits) (hlive : s ≠ .shutDown) :
    w.KeepsAll (w.perform s).1 := by
  by_cases hconfigures : s.Configures
  · exact keepsAll_of_eq (by rw [configure_scheduler w hconfigures])
  · exact keepsAll_frame.perform w hwaits hconfigures hlive

theorem enter_ended {ending : Ending} (htask : w.scheduler.tasks[id]? = some (.ended ending))
    (wake : Wake) : w.enter id wake = (w, none) := by
  rw [enter_other (fun k l phase hlive => by rw [htask] at hlive; cases hlive),
    (runTask_idle wake fun work hlive => by rw [htask] at hlive; cases hlive).2]

theorem leave_other {h : Halfway} {id : TaskId} (hne : h.task ≠ id) (w : World) :
    (w.leave h).scheduler.tasks[id]? = w.scheduler.tasks[id]? :=
  Array.getElem?_setIfInBounds_ne hne

end World

/-! ## Histories on several threads -/

/-- A world whose tasks run in parallel, with the lookups that are halfway. -/
structure Parallel where
  world : World
  halfway : List Halfway := []

namespace Parallel

/-- Who makes a passage, and with which part of a run. -/
inductive Mover
  | caller (s : Step)
  | enters (id : TaskId) (wake : Wake)
  | leaves (h : Halfway)
  | surroundings

def Mover.task? : Mover → Option TaskId
  | .enters id _ => some id
  | .leaves h => some h.task
  | _ => none

structure Passage where
  before : Parallel
  mover : Mover
  after : Parallel

/-- A call writes to a client under one lock at most, so it is one passage, as is a run without two
writes. What a run does before its first write touches no client, and is part of the same passage. A
shutdown lets every run come to its end first, so it finds no lookup halfway. -/
inductive Passes (s : Parallel) : Mover → Parallel → Prop
  | call {c : Step} : ¬ c.Waits → (c = .shutDown → s.halfway = []) →
      Passes s (.caller c) { s with world := (s.world.perform c).1 }
  | enters (id : TaskId) (wake : Wake) : (∀ h ∈ s.halfway, h.task ≠ id) →
      Passes s (.enters id wake)
        ⟨(s.world.enter id wake).1, (s.world.enter id wake).2.toList ++ s.halfway⟩
  | leaves {h : Halfway} : h ∈ s.halfway →
      Passes s (.leaves h) ⟨s.world.leave h, s.halfway.filter (·.task ≠ h.task)⟩
  | aside {w' : World} : s.world.Beside w' → Passes s .surroundings { s with world := w' }

/-- The passages from one world to another, on any number of threads. -/
inductive History (s : Parallel) : List Passage → Parallel → Prop
  | start : History s [] s
  | passage {ps : List Passage} {s' s'' : Parallel} {mover : Mover} :
      History s ps s' → s'.Passes mover s'' → History s (ps ++ [⟨s', mover, s''⟩]) s''

/-- A passage is made by a task. -/
def Passage.By (p : Passage) (id : TaskId) : Prop := p.mover.task? = some id

/-- The run that a passage is, or begins. -/
def Passage.run? (p : Passage) : Option GatewayClient.Passage :=
  match p.mover with
  | .enters id wake => some ⟨p.before.world, .task id wake, p.after.world⟩
  | _ => none

/-- On one thread a lookup that is halfway goes on at once. -/
def OneThread (ps : List Passage) : Prop :=
  ∀ p ∈ ps, ∀ h ∈ p.before.halfway, p.mover = .leaves h

/-- The lookups that are halfway are tasks of their own, which have not ended. -/
structure Sound (s : Parallel) : Prop where
  live : ∀ h ∈ s.halfway, ∃ l phase,
    s.world.scheduler.tasks[h.task]? = some (.live (.lookup h.client l phase))
  nodup : (s.halfway.map (·.task)).Nodup

section

variable {s s' : Parallel} {m : Mover} {id : TaskId}

theorem Sound.halfway_unique (hsound : s.Sound) {h h' : Halfway} (hh : h ∈ s.halfway)
    (hh' : h' ∈ s.halfway) (htask : h.task = h'.task) : h = h' :=
  List.inj_on_of_nodup_map hsound.nodup hh hh' htask

/-- What a passage makes of the lookups that are halfway, and of their tasks. -/
theorem Passes.sound (hpasses : s.Passes m s') (hsound : s.Sound) : s'.Sound := by
  cases hpasses with
  | @call c hwaits hdown =>
      refine ⟨fun h hh => ?_, hsound.nodup⟩
      obtain ⟨l, phase, htask⟩ := hsound.live h hh
      have hlive : c ≠ .shutDown := fun heq => by
        rw [hdown heq] at hh
        cases hh
      exact ⟨l, phase, s.world.perform_keepsAll hwaits hlive _ _ htask⟩
  | enters id wake hfree =>
      have hentered := s.world.enter_entered id wake
      generalize s.world.enter id wake = r at hentered ⊢
      cases hentered with
      | whole =>
          refine ⟨fun h hh => ?_, hsound.nodup⟩
          rw [World.runTask_other (Ne.symm (hfree h hh))]
          exact hsound.live h hh
      | half htask _ _ hscheduler =>
          refine ⟨fun h hh => ?_, List.nodup_cons.mpr ⟨fun hmem => ?_, hsound.nodup⟩⟩
          · dsimp only
            rw [hscheduler]
            rcases List.mem_cons.mp hh with rfl | hh
            · exact ⟨_, _, htask⟩
            · exact hsound.live h hh
          · obtain ⟨h, hh, heq⟩ := List.mem_map.mp hmem
            exact hfree h hh heq
  | @leaves h hh =>
      refine ⟨fun h' hh' => ?_, (List.filter_sublist.map _).nodup hsound.nodup⟩
      obtain ⟨hmem, hne⟩ := List.mem_filter.mp hh'
      dsimp only
      rw [World.leave_other (Ne.symm (of_decide_eq_true hne))]
      exact hsound.live h' hmem
  | aside hbeside =>
      refine ⟨fun h hh => ?_, hsound.nodup⟩
      rw [hbeside.tasks]
      exact hsound.live h hh

theorem History.sound {ps : List Passage} (hhistory : s.History ps s') (hsound : s.Sound) :
    s'.Sound := by
  induction hhistory with
  | start => exact hsound
  | passage _ hpasses ih => exact hpasses.sound ih

theorem sound_none (w : World) : Sound ⟨w, []⟩ :=
  ⟨fun _ hh => (List.not_mem_nil hh).elim, List.nodup_nil⟩

/-- A task that is there stays as it is in the passages of others, unless it is aborted. -/
theorem Passes.task_cases (hpasses : s.Passes m s') (hother : m.task? ≠ some id) {task : Task}
    (htask : s.world.scheduler.tasks[id]? = some task) :
    s'.world.scheduler.tasks[id]? = some task
      ∨ (∃ work, task = .live work)
        ∧ s'.world.scheduler.tasks[id]? = some (.ended .aborted) := by
  cases hpasses with
  | call hwaits => exact s.world.perform_keeps hwaits id task htask
  | enters id' wake =>
      have hne : id' ≠ id := fun heq => hother (congrArg some heq)
      have hentered := s.world.enter_entered id' wake
      generalize s.world.enter id' wake = r at hentered ⊢
      cases hentered with
      | whole =>
          dsimp only
          rw [World.runTask_other hne]
          exact .inl htask
      | half _ _ _ hscheduler =>
          dsimp only
          rw [hscheduler]
          exact .inl htask
  | @leaves h hh =>
      dsimp only
      rw [World.leave_other fun heq => hother (congrArg some heq)]
      exact .inl htask
  | aside hbeside => exact .inl (by rw [hbeside.tasks]; exact htask)

/-- Whether a lookup is halfway does not change in the passages of others. -/
theorem Passes.halfway_iff (hpasses : s.Passes m s') (hother : m.task? ≠ some id) {h : Halfway}
    (hid : h.task = id) : h ∈ s'.halfway ↔ h ∈ s.halfway := by
  cases hpasses with
  | call => rfl
  | enters id' wake =>
      have hentered := s.world.enter_entered id' wake
      generalize s.world.enter id' wake = r at hentered ⊢
      cases hentered with
      | whole => rfl
      | half =>
          refine ⟨fun hh => ?_, fun hh => List.mem_cons_of_mem _ hh⟩
          rcases List.mem_cons.mp hh with rfl | hh
          · exact absurd (congrArg some hid) hother
          · exact hh
  | @leaves h' _ =>
      have hne : h.task ≠ h'.task := fun heq => hother (congrArg some (heq.symm.trans hid))
      refine List.mem_filter.trans ⟨And.left, fun hh => ⟨hh, decide_eq_true hne⟩⟩
  | aside => rfl

/-- A client that is there stays there. -/
theorem Passes.client (hpasses : s.Passes m s') {k : ClientId} {c : Client}
    (hc : s.world.clients[k]? = some c) : ∃ c', s'.world.clients[k]? = some c' := by
  have hset : ∀ k' c', ∃ c'', (s.world.clients.setIfInBounds k' c')[k]? = some c'' := by
    intro k' c'
    have hk := (Array.getElem?_eq_some_iff.mp hc).1
    exact ⟨_, Array.getElem?_eq_getElem (by rw [Array.size_setIfInBounds]; exact hk)⟩
  cases hpasses with
  | call hwaits => exact (World.Passes.call hwaits).client hc
  | enters id wake =>
      have hentered := s.world.enter_entered id wake
      generalize s.world.enter id wake = r at hentered ⊢
      cases hentered with
      | whole => exact (World.Passes.task id wake).client hc
      | half _ _ hclients =>
          dsimp only
          rw [hclients]
          exact hset _ _
  | leaves => exact hset _ _
  | aside hbeside => exact ⟨c, by rw [hbeside.clients]; exact hc⟩

end

/-! ## One thread -/

theorem OneThread.append {ps ps' : List Passage} (hone : OneThread ps) (hone' : OneThread ps') :
    OneThread (ps ++ ps') :=
  fun p hp => (List.mem_append.mp hp).elim (hone p) (hone' p)

/-- A passage in which no lookup is halfway. -/
theorem oneThread_single {p : Passage} (hnone : p.before.halfway = []) : OneThread [p] := by
  intro q hq h hh
  rw [List.mem_singleton.mp hq, hnone] at hh
  cases hh

theorem History.append {s s' s'' : Parallel} {ps ps' : List Passage} (hhistory : s.History ps s')
    (hhistory' : s'.History ps' s'') : s.History (ps ++ ps') s'' := by
  induction hhistory' with
  | start => rw [List.append_nil]; exact hhistory
  | passage _ hpasses ih => rw [← List.append_assoc]; exact ih.passage hpasses

/-- One thread makes both parts of a run one after the other. -/
theorem runs_at_once (id : TaskId) (wake : Wake) (w : World) :
    ∃ ps, History ⟨w, []⟩ ps ⟨w.runTask id wake, []⟩ ∧ OneThread ps := by
  have henters := Passes.enters (s := ⟨w, []⟩) id wake fun h hh => (List.not_mem_nil hh).elim
  have hentered := w.enter_entered id wake
  generalize w.enter id wake = r at hentered henters
  cases hentered with
  | whole => exact ⟨_, History.start.passage henters, oneThread_single rfl⟩
  | @half k _ _ report _ w₁ _ hrun =>
      let h : Halfway := ⟨id, k, report⟩
      have hleaves := Passes.leaves (s := ⟨w₁, [h]⟩) (List.mem_singleton_self h)
      have hnone : [h].filter (fun h' => h'.task ≠ h.task) = [] := by
        refine List.filter_eq_nil_iff.mpr fun h' hh' hne => of_decide_eq_true hne ?_
        rw [List.mem_singleton.mp hh']
      rw [hnone] at hleaves
      rw [hrun]
      refine ⟨_, (History.start.passage henters).passage hleaves,
        (oneThread_single rfl).append fun p hp h' hh' => ?_⟩
      rw [List.mem_singleton.mp hp] at hh' ⊢
      rw [List.mem_singleton.mp hh']

end Parallel

/-- The histories of one thread are histories of several, in which lookups that are halfway go on at
once. -/
theorem World.History.parallel {w w' : World} {ps : List GatewayClient.Passage}
    (hhistory : w.History ps w') :
    ∃ ps', Parallel.History ⟨w, []⟩ ps' ⟨w', []⟩ ∧ Parallel.OneThread ps' := by
  induction hhistory with
  | start => exact ⟨[], .start, fun p hp => (List.not_mem_nil hp).elim⟩
  | @passage ps w₁ w₂ mover _ hpasses ih =>
      obtain ⟨ps₁, hhistory₁, hone₁⟩ := ih
      obtain ⟨ps₂, hhistory₂, hone₂⟩ : ∃ ps₂, Parallel.History ⟨w₁, []⟩ ps₂ ⟨w₂, []⟩
          ∧ Parallel.OneThread ps₂ := by
        cases hpasses with
        | call hwaits =>
            exact ⟨_, Parallel.History.start.passage (.call hwaits fun _ => rfl),
              Parallel.oneThread_single rfl⟩
        | task id wake => exact Parallel.runs_at_once id wake w₁
        | aside hbeside =>
            exact ⟨_, Parallel.History.start.passage (.aside hbeside),
              Parallel.oneThread_single rfl⟩
      exact ⟨_, hhistory₁.append hhistory₂, hone₁.append hone₂⟩

end GatewayClient
