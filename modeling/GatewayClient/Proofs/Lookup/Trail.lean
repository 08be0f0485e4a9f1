import GatewayClient.Proofs.Lookup.Counting
import GatewayClient.Proofs.Lookup.Fate
import GatewayClient.Scenario.Task

/-!
# The trail of a lookup

A lookup runs from one wait to the next. A leg is one of these runs together with the world in
which it took place, and a trail is one leg after the other, each from where the one before ended.
Nothing is asked of the worlds: between two legs other tasks run, the control plane is told
something else, tokens are cancelled and time passes. So the legs of a lookup are a trail whatever
goes on around it.

What a leg can do is said once (`Leg.step_cases`, `upshot_follow`). From it come the books of a
lookup (`Trail.books`): which courses its attempts met, what it did with its sessions, what its
counter says and where it is all agree at every point of a trail.
-/

namespace GatewayClient

/-! ## What one run of a lookup does -/

namespace Lookup

/-- A run from a phase and for a reason begins an attempt, unless the token is cancelled. -/
inductive Begins : Option LookupPhase → Wake → Prop
  | called {wake : Wake} : Begins none wake
  | backedOff {n : UInt32} {wake : Wake} : wake ≠ .token → Begins (some (.backingOff n)) wake

theorem begins_or (phase : Option LookupPhase) (wake : Wake) :
    Begins phase wake ∨ (∃ p, phase = some (.probing p))
      ∨ ∃ n, phase = some (.backingOff n) ∧ wake = .token := by
  rcases phase with _ | p | n
  · exact .inl .called
  · exact .inr (.inl ⟨p, rfl⟩)
  · by_cases hwake : wake = .token
    · exact .inr (.inr ⟨n, rfl, hwake⟩)
    · exact .inl (.backedOff hwake)

theorem heed_false (s : LookupStep) : s.heed false = s := by
  unfold LookupStep.heed
  split
  · next heq => cases heq
  · rfl

end Lookup

namespace World

variable {l : Lookup} {phase : Option LookupPhase} {wake : Wake} {w : World}

/-- A run that ends because the token is cancelled before its attempt. -/
theorem stepLookup_stopped (hbegins : Lookup.Begins phase wake)
    (hcancelled : w.scheduler.isCancelled l.token = true) :
    w.stepLookup l phase wake = (w.book (l.cancel []), l.cancel []) := by
  cases hbegins with
  | called => simp only [stepLookup, hcancelled, if_true]; rfl
  | backedOff hwake =>
      cases wake with
      | token => exact absurd rfl hwake
      | _ => simp only [stepLookup, hcancelled, if_true]; rfl

/-- A run that begins an attempt. -/
theorem stepLookup_attempt (hbegins : Lookup.Begins phase wake)
    (hcancelled : w.scheduler.isCancelled l.token = false) :
    w.stepLookup l phase wake =
      ({ w with plane := (w.plane.take w.scheduler.now l.request).2 }.book
          (l.attempt (w.plane.take w.scheduler.now l.request).1),
        l.attempt (w.plane.take w.scheduler.now l.request).1) := by
  cases hbegins with
  | called => simp only [stepLookup, hcancelled, Bool.false_eq_true, if_false, Lookup.heed_false]
  | backedOff hwake =>
      cases wake with
      | token => exact absurd rfl hwake
      | _ => simp only [stepLookup, hcancelled, Bool.false_eq_true, if_false, Lookup.heed_false]

end World

namespace Lookup

/-! ## Legs -/

/-- One run of a lookup between two waits: the world in which it takes place, the phase from which
it goes on and the reason. -/
structure Leg where
  world : World
  lookup : Lookup
  phase : Option LookupPhase
  wake : Wake

/-- Where a lookup is while it does not run. -/
inductive Place
  | called
  | asleep (phase : LookupPhase) (due : Nat)
  | returned (result : Except ClientError LookupReport)
  | faulted (f : Fault)

/-- Where a step leaves a lookup. -/
def Place.ofNext (r : Scheduler) : LookupNext → Place
  | .wait phase ms => asleep phase (r.dueIn ms)
  | .returned result => returned result
  | .faulted f => faulted f

/-- From a place a lookup goes on from a phase. -/
inductive Place.Onward : Place → Option LookupPhase → Prop
  | called : Onward .called none
  | asleep {phase : LookupPhase} {due : Nat} : Onward (.asleep phase due) (some phase)

theorem Place.Onward.asleep_of {place : Place} {phase : LookupPhase}
    (honward : place.Onward (some phase)) : ∃ due, place = .asleep phase due := by
  cases honward
  exact ⟨_, rfl⟩

namespace Leg

def time (g : Leg) : Nat := g.world.scheduler.now

def cancelled (g : Leg) : Bool := g.world.scheduler.isCancelled g.lookup.token

/-- The world after the leg. -/
def after (g : Leg) : World := (g.world.stepLookup g.lookup g.phase g.wake).1

def step (g : Leg) : LookupStep := (g.world.stepLookup g.lookup g.phase g.wake).2

/-- Where the leg leads. -/
def arrival (g : Leg) : Place := .ofNext g.world.scheduler g.step.next

/-- The course that the attempt of a leg meets, if one begins. -/
def course? (g : Leg) : Option ProbeCourse :=
  match g.phase, g.wake with
  | some (.probing _), _ => none
  | some (.backingOff _), .token => none
  | _, _ => if g.cancelled then none else some (g.world.plane.take g.time g.lookup.request).1

theorem course?_of_begins {g : Leg} (hbegins : Begins g.phase g.wake) :
    g.course? =
      if g.cancelled then none else some (g.world.plane.take g.time g.lookup.request).1 := by
  obtain ⟨w, l, phase, wake⟩ := g
  cases hbegins with
  | called => rfl
  | backedOff hwake =>
      cases wake with
      | token => exact absurd rfl hwake
      | _ => rfl

/-- A leg begins an attempt, goes on with its probe, or ends the lookup because the token is
cancelled. -/
inductive Cases (g : Leg) : Prop
  | attempt (c : ProbeCourse) : Begins g.phase g.wake → g.cancelled = false → g.course? = some c →
      g.step = (g.lookup.follow (Probe.start c)).heed g.cancelled → Cases g
  | resume (phase : ProbePhase) : g.phase = some (.probing phase) → g.course? = none →
      g.step = (g.lookup.follow (Probe.resume phase)).heed g.cancelled → Cases g
  | stop (notes : Journal) : (∀ phase, g.phase ≠ some (.probing phase)) →
      g.cancelled = true ∨ g.wake = .token → g.course? = none →
      g.step = g.lookup.cancel notes → Cases g

theorem not_probing_of_begins {g : Leg} (hbegins : Begins g.phase g.wake) (phase : ProbePhase) :
    g.phase ≠ some (.probing phase) := by
  intro hphase
  rw [hphase] at hbegins
  cases hbegins

theorem step_cases (g : Leg) : g.Cases := by
  obtain ⟨w, l, phase, wake⟩ := g
  rcases begins_or phase wake with hbegins | ⟨p, rfl⟩ | ⟨n, rfl, rfl⟩
  · have hcourse := course?_of_begins (g := ⟨w, l, phase, wake⟩) hbegins
    cases hcancelled : cancelled ⟨w, l, phase, wake⟩ with
    | true =>
        rw [hcancelled, if_pos rfl] at hcourse
        refine .stop [] (not_probing_of_begins hbegins) (.inl hcancelled) hcourse ?_
        rw [step, World.stepLookup_stopped hbegins hcancelled]
    | false =>
        rw [hcancelled, if_neg Bool.false_ne_true] at hcourse
        refine .attempt _ hbegins hcancelled hcourse ?_
        rw [step, World.stepLookup_attempt hbegins hcancelled, hcancelled, heed_false]
        rfl
  · exact .resume p rfl rfl rfl
  · exact .stop _ (fun _ heq => by cases heq) (.inr rfl) rfl rfl

/-- A leg that begins an attempt takes a course, and what a leg does is counted. -/
theorem plane_after (g : Leg) :
    g.after.plane =
      (g.course?.elim g.world.plane fun _ =>
        (g.world.plane.take g.time g.lookup.request).2).tally g.step.deeds := by
  obtain ⟨w, l, phase, wake⟩ := g
  rcases begins_or phase wake with hbegins | ⟨p, rfl⟩ | ⟨n, rfl, rfl⟩
  · have hcourse := course?_of_begins (g := ⟨w, l, phase, wake⟩) hbegins
    cases hcancelled : cancelled ⟨w, l, phase, wake⟩ with
    | true =>
        rw [hcancelled, if_pos rfl] at hcourse
        rw [after, step, World.stepLookup_stopped hbegins hcancelled, hcourse]
        rfl
    | false =>
        rw [hcancelled, if_neg Bool.false_ne_true] at hcourse
        rw [after, step, World.stepLookup_attempt hbegins hcancelled, hcourse]
        rfl
  · rfl
  · rfl

/-- The control plane sees a leg exactly if an attempt begins in it. -/
theorem probes_after (g : Leg) :
    g.after.plane.probes =
      g.world.plane.probes ++ (g.course?.map fun _ => ⟨g.time, g.lookup.request⟩).toList := by
  rw [plane_after]
  cases g.course? with
  | none => exact (List.append_nil _).symm
  | some c =>
      simp only [Option.elim, ControlPlane.take]
      cases g.world.plane.script <;> rfl

theorem opened_after (g : Leg) :
    g.after.plane.opened = g.world.plane.opened + g.step.deeds.count .opened := by
  rw [plane_after]
  cases g.course? with
  | none => rfl
  | some c =>
      simp only [Option.elim, ControlPlane.take]
      cases g.world.plane.script <;> rfl

theorem closed_after (g : Leg) :
    g.after.plane.closed = g.world.plane.closed + g.step.deeds.count .closed := by
  rw [plane_after]
  cases g.course? with
  | none => rfl
  | some c =>
      simp only [Option.elim, ControlPlane.take]
      cases g.world.plane.script <;> rfl

end Leg

/-! ## What becomes of a lookup after a run of its probe -/

/-- A lookup that has counted more failures. -/
def counting (l : Lookup) (n : Nat) : Lookup :=
  { l with retry := ⟨l.retry.attempt + UInt32.ofNat n⟩ }

theorem counting_zero (l : Lookup) : l.counting 0 = l := by
  show { l with retry := l.retry.recordFailures 0 } = l
  rw [RetryCounter.recordFailures_zero]

theorem counting_eq {l : Lookup} (hfresh : l.retry = {}) (n : Nat) :
    l.counting n = { l with retry := ⟨UInt32.ofNat n⟩ } := by
  unfold counting
  rw [hfresh]
  exact congrArg (fun attempt : UInt32 => { l with retry := ⟨attempt⟩ }) (UInt32.zero_add _)

theorem recordFailure_counting (l : Lookup) (n : Nat) :
    { l.counting n with retry := (l.counting n).retry.recordFailure.2 } = l.counting (n + 1) := by
  show { l with retry := (l.retry.recordFailures n).recordFailure.2 } =
    { l with retry := l.retry.recordFailures (n + 1) }
  rw [RetryCounter.recordFailures_succ]

/-- What becomes of a lookup after a run of its probe: it waits on, or its probe has come to an
end. -/
inductive Upshot (l : Lookup) (s : ProbeStep) (cancelled : Bool) : Lookup → LookupNext → Prop
  | waits {phase : ProbePhase} {ms : Nat} : s.next = .wait phase ms →
      Upshot l s cancelled l (.wait (.probing phase) ms)
  | finds {r : Recommendation} : s.next = .settled (.ok r) →
      Upshot l s cancelled { l with retry := {} } (.returned (.ok ⟨r, l.retry.attempt⟩))
  | givesUp {e : ClientError} : s.next = .settled (.error e) → cancelled = true →
      Upshot l s cancelled { l with retry := l.retry.recordFailure.2 }
        (.returned (.error .cancelled))
  | backsOff {e : ClientError} : s.next = .settled (.error e) → cancelled = false →
      Upshot l s cancelled { l with retry := l.retry.recordFailure.2 }
        (.wait (.backingOff l.retry.recordFailure.1) (l.backoff.delayFor l.retry.recordFailure.1))
  | faults {f : Fault} : s.next = .faulted f → Upshot l s cancelled l (.faulted f)

theorem upshot_follow (l : Lookup) (s : ProbeStep) (cancelled : Bool) :
    Upshot l s cancelled ((l.follow s).heed cancelled).lookup
      ((l.follow s).heed cancelled).next := by
  obtain ⟨deeds, next⟩ := s
  cases next with
  | wait phase ms => exact .waits rfl
  | faulted f => exact .faults rfl
  | settled answer =>
      cases answer with
      | ok r => exact .finds rfl
      | error e =>
          cases cancelled with
          | true => exact .givesUp rfl rfl
          | false => exact .backsOff rfl rfl

/-- A leg is a run of the probe of its lookup, or it ends the lookup because of its token. -/
theorem Leg.upshot_or_stop (g : Leg) :
    (∃ s, Upshot g.lookup s g.cancelled g.step.lookup g.step.next)
      ∨ ∃ notes, (∀ p, g.phase ≠ some (.probing p)) ∧ (g.cancelled = true ∨ g.wake = .token)
        ∧ g.step = g.lookup.cancel notes := by
  rcases g.step_cases with ⟨c, -, -, -, hstep⟩ | ⟨p, -, -, hstep⟩ | ⟨notes, hphase, hwhy, -, hstep⟩
  · exact .inl ⟨Probe.start c, by rw [hstep]; exact upshot_follow _ _ _⟩
  · exact .inl ⟨Probe.resume p, by rw [hstep]; exact upshot_follow _ _ _⟩
  · exact .inr ⟨notes, hphase, hwhy, hstep⟩

theorem deeds_follow (l : Lookup) (s : ProbeStep) (cancelled : Bool) :
    ((l.follow s).heed cancelled).deeds = s.deeds := by
  unfold LookupStep.heed
  split <;> rfl

/-! ## Trails -/

/-- The legs of a lookup up to a point, and where it is then. -/
inductive Trail (l₀ : Lookup) : List Leg → Lookup → Place → Prop
  | called : Trail l₀ [] l₀ .called
  | leg {legs : List Leg} {l : Lookup} {place : Place} {phase : Option LookupPhase} (w : World)
      (wake : Wake) : Trail l₀ legs l place → place.Onward phase →
      Trail l₀ (legs ++ [⟨w, l, phase, wake⟩]) (Leg.step ⟨w, l, phase, wake⟩).lookup
        (Leg.arrival ⟨w, l, phase, wake⟩)

/-- The courses that the attempts of some legs met. -/
def courses (legs : List Leg) : List ProbeCourse := legs.filterMap Leg.course?

/-- What a lookup did with its sessions in some legs. -/
def deeds (legs : List Leg) : List ProbeDeed := legs.flatMap (·.step.deeds)

/-- What attempts on some courses do with their sessions. -/
def deedsOn (cs : List ProbeCourse) : List ProbeDeed := cs.flatMap (·.fate.deeds)

theorem courses_append (legs legs' : List Leg) :
    courses (legs ++ legs') = courses legs ++ courses legs' := List.filterMap_append

theorem deeds_append (legs legs' : List Leg) :
    deeds (legs ++ legs') = deeds legs ++ deeds legs' := List.flatMap_append

theorem courses_none {g : Leg} (hcourse : g.course? = none) : courses [g] = [] := by
  simp only [courses, List.filterMap_cons, hcourse, List.filterMap_nil]

theorem courses_some {g : Leg} {c : ProbeCourse} (hcourse : g.course? = some c) :
    courses [g] = [c] := by
  simp only [courses, List.filterMap_cons, hcourse, List.filterMap_nil]

theorem deeds_singleton (g : Leg) : deeds [g] = g.step.deeds := List.append_nil _

/-! ## Books -/

/-- Every attempt on these courses fails. -/
def AllFail (cs : List ProbeCourse) : Prop := ∀ c ∈ cs, ∃ e, c.FailsBy e

theorem AllFail.concat {cs : List ProbeCourse} {c : ProbeCourse} {e : ClientError}
    (hfail : AllFail cs) (hc : c.FailsBy e) : AllFail (cs ++ [c]) := by
  intro c' hc'
  rcases List.mem_append.mp hc' with hold | hnew
  · exact hfail c' hold
  · exact ⟨e, List.mem_singleton.mp hnew ▸ hc⟩

/-- The books of a lookup: the courses that its attempts met, what it did with its sessions, its
counter and its place, as they go together. -/
inductive Books (l₀ : Lookup) : List ProbeCourse → List ProbeDeed → Lookup → Place → Prop
  | called : Books l₀ [] [] l₀ .called
  | probing {cs : List ProbeCourse} {c : ProbeCourse} {past : List ProbeDeed} {phase : ProbePhase}
      {due : Nat} : AllFail cs → c.fate.deeds = past ++ phase.fate.deeds →
      c.fate.ending = phase.fate.ending →
      Books l₀ (cs ++ [c]) (deedsOn cs ++ past) (l₀.counting cs.length)
        (.asleep (.probing phase) due)
  | backingOff {cs : List ProbeCourse} {attempt : UInt32} {due : Nat} : AllFail cs →
      Books l₀ cs (deedsOn cs) (l₀.counting cs.length) (.asleep (.backingOff attempt) due)
  | found {cs : List ProbeCourse} {c : ProbeCourse} {r : Recommendation} : AllFail cs →
      c.Finds r →
      Books l₀ (cs ++ [c]) (deedsOn (cs ++ [c])) { l₀ with retry := {} }
        (.returned (.ok ⟨r, (l₀.counting cs.length).retry.attempt⟩))
  | cancelled {cs : List ProbeCourse} : AllFail cs →
      Books l₀ cs (deedsOn cs) (l₀.counting cs.length) (.returned (.error .cancelled))
  | faulted {cs : List ProbeCourse} {c : ProbeCourse} {f : Fault} : AllFail cs →
      c.fate.ending = .error f →
      Books l₀ (cs ++ [c]) (deedsOn (cs ++ [c])) (l₀.counting cs.length) (.faulted f)

theorem deedsOn_concat (cs : List ProbeCourse) (c : ProbeCourse) :
    deedsOn (cs ++ [c]) = deedsOn cs ++ c.fate.deeds := by
  simp only [deedsOn, List.flatMap_append, List.flatMap_singleton]

/-- The books stay right over a run of the probe. -/
theorem Books.follow {l₀ : Lookup} {cs : List ProbeCourse} {c : ProbeCourse}
    {past : List ProbeDeed} {s : ProbeStep} (hfail : AllFail cs)
    (hdeeds : c.fate.deeds = past ++ s.fate.deeds) (hending : c.fate.ending = s.fate.ending)
    (cancelled : Bool) (r : Scheduler) :
    Books l₀ (cs ++ [c]) (deedsOn cs ++ past ++ s.deeds)
      (((l₀.counting cs.length).follow s).heed cancelled).lookup
      (.ofNext r (((l₀.counting cs.length).follow s).heed cancelled).next) := by
  have hend : s.fate.deeds = s.deeds → deedsOn cs ++ past ++ s.deeds = deedsOn (cs ++ [c]) := by
    intro hlast
    rw [deedsOn_concat, hdeeds, hlast, List.append_assoc]
  have hlength : (cs ++ [c]).length = cs.length + 1 := List.length_append
  have hupshot := upshot_follow (l₀.counting cs.length) s cancelled
  generalize (((l₀.counting cs.length).follow s).heed cancelled).lookup = l at hupshot ⊢
  generalize (((l₀.counting cs.length).follow s).heed cancelled).next = next at hupshot ⊢
  cases hupshot with
  | waits hnext =>
      simp only [ProbeStep.fate, hnext] at hdeeds hending
      rw [List.append_assoc]
      exact .probing hfail (by rw [hdeeds, List.append_assoc]) hending
  | finds hnext =>
      simp only [ProbeStep.fate, hnext] at hend hending
      rw [hend trivial]
      exact .found hfail (ProbeCourse.finds_of_ending hending)
  | givesUp hnext =>
      simp only [ProbeStep.fate, hnext] at hend hending
      rw [hend trivial, recordFailure_counting, ← hlength]
      exact .cancelled (hfail.concat (ProbeCourse.failsBy_of_ending hending))
  | backsOff hnext =>
      simp only [ProbeStep.fate, hnext] at hend hending
      rw [hend trivial, recordFailure_counting, ← hlength]
      exact .backingOff (hfail.concat (ProbeCourse.failsBy_of_ending hending))
  | faults hnext =>
      simp only [ProbeStep.fate, hnext] at hend hending
      rw [hend trivial]
      exact .faulted hfail hending

/-- At every point of a trail the books are right. -/
theorem Trail.books {l₀ l : Lookup} {legs : List Leg} {place : Place}
    (htrail : Trail l₀ legs l place) : Books l₀ (courses legs) (deeds legs) l place := by
  induction htrail with
  | called => exact .called
  | @leg legs l place phase w wake _ honward ih =>
      rw [courses_append, deeds_append, deeds_singleton]
      generalize courses legs = cs at ih ⊢
      generalize deeds legs = past at ih ⊢
      rcases Leg.step_cases ⟨w, l, phase, wake⟩ with
        ⟨c, hbegins, hcancelled, hcourse, hstep⟩ | ⟨phase', hphase, hcourse, hstep⟩
          | ⟨notes, hphase, hcancelled, hcourse, hstep⟩
      · -- An attempt begins at the call or after a backoff; what came before it has failed.
        obtain ⟨hfail, hdeeds, hl⟩ :
            AllFail cs ∧ past = deedsOn cs ∧ l = l₀.counting cs.length := by
          cases ih with
          | called => exact ⟨fun _ h => (List.not_mem_nil h).elim, rfl, (counting_zero l₀).symm⟩
          | backingOff hfail => exact ⟨hfail, rfl, rfl⟩
          | probing => cases honward; cases hbegins
          | found | cancelled | faulted => cases honward
        rw [courses_some hcourse, hdeeds, Leg.arrival, hstep, deeds_follow, hl]
        have hfollow := @Books.follow l₀ cs c [] (Probe.start c) hfail
          (by rw [Probe.fate_start, List.nil_append]) (by rw [Probe.fate_start])
          (Leg.cancelled ⟨w, l, phase, wake⟩) w.scheduler
        rw [List.append_nil] at hfollow
        rw [← hl] at hfollow ⊢
        exact hfollow
      · rw [courses_none hcourse, List.append_nil, Leg.arrival, hstep, deeds_follow]
        cases ih with
        | probing hfail hdeeds hending =>
            cases honward
            cases hphase
            exact Books.follow hfail (by rw [hdeeds, Probe.fate_resume])
              (by rw [hending, Probe.fate_resume]) _ w.scheduler
        | called => cases honward; cases hphase
        | backingOff => cases honward; cases hphase
        | found | cancelled | faulted => cases honward
      · rw [courses_none hcourse, List.append_nil, Leg.arrival, hstep]
        have hnone : (l.cancel notes).deeds = [] := rfl
        rw [hnone, List.append_nil]
        cases ih with
        | called =>
            have hstopped := @Books.cancelled l₀ [] fun _ h => (List.not_mem_nil h).elim
            rw [List.length_nil, counting_zero] at hstopped
            exact hstopped
        | backingOff hfail => exact .cancelled hfail
        | probing => cases honward; exact absurd rfl (hphase _)
        | found | cancelled | faulted => cases honward

/-- A recommendation that a lookup returned was found by one of its attempts. -/
theorem Trail.returned_ok {l₀ l : Lookup} {legs : List Leg} {report : LookupReport}
    (htrail : Trail l₀ legs l (.returned (.ok report))) :
    ∃ c ∈ courses legs, c.Finds report.recommendation := by
  have hbooks := htrail.books
  generalize courses legs = cs at hbooks ⊢
  generalize deeds legs = ds at hbooks
  cases hbooks with
  | found _ hfinds => exact ⟨_, List.mem_append_right _ (List.mem_singleton_self _), hfinds⟩

theorem Trail.returned_error {l₀ l : Lookup} {legs : List Leg} {e : ClientError}
    (htrail : Trail l₀ legs l (.returned (.error e))) : e = .cancelled := by
  have hbooks := htrail.books
  generalize courses legs = cs at hbooks
  generalize deeds legs = ds at hbooks
  cases hbooks with
  | cancelled => rfl

end Lookup

end GatewayClient
