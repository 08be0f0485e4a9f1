import GatewayClient.Proofs.Lookup.Journey

/-!
# The timetable of a lookup

While its token is not cancelled a lookup keeps to a timetable, whatever else goes on: an attempt
begins as soon as the wait after the one before is over, and lasts as long as its course says. So
the courses that its attempts have met tell when each of them began, what was told of the failures,
and when the lookup goes on or came to its end (`journey_inTime`).
-/

namespace GatewayClient

/-- The time that probes on some courses take. -/
def ProbeCourse.spent : List ProbeCourse → Nat
  | [] => 0
  | c :: cs => c.fate.ms + spent cs

/-- The waits of a lookup that has failed `k` times, over the next failures. A wait is cut short at
the longest wait of the clock. -/
def Backoff.waits (b : Backoff) (k : Nat) : Nat → Nat
  | 0 => 0
  | n + 1 => Nat.min (b.delayFor (UInt32.ofNat (k + 1))) Scheduler.longestWait + waits b (k + 1) n

theorem ProbeCourse.spent_concat (cs : List ProbeCourse) (c : ProbeCourse) :
    spent (cs ++ [c]) = spent cs + c.fate.ms := by
  induction cs with
  | nil => exact Nat.add_comm ..
  | cons c' cs ih => rw [List.cons_append, spent, ih, spent, Nat.add_assoc]

theorem Backoff.waits_succ (b : Backoff) (k n : Nat) :
    b.waits k (n + 1) =
      b.waits k n + Nat.min (b.delayFor (UInt32.ofNat (k + n + 1))) Scheduler.longestWait := by
  induction n generalizing k with
  | zero => exact Nat.add_comm ..
  | succ n ih =>
      have hcount : k + 1 + n = k + (n + 1) := by omega
      rw [waits, ih, waits, hcount, ← Nat.add_assoc]

namespace Lookup

/-- What is told of some failures, the first of them after `k` others. -/
def failureNotes (b : Backoff) (k : Nat) : List (ProbeCourse × ClientError) → Journal
  | [] => []
  | p :: ps =>
    failed p.2 (UInt32.ofNat (k + 1))
      :: retrying (UInt32.ofNat (k + 1)) (b.delayFor (UInt32.ofNat (k + 1)))
      :: failureNotes b (k + 1) ps

/-- When attempts on some courses begin, the first of them now and after `k` failures. -/
def starts (b : Backoff) (k now : Nat) (cs : List ProbeCourse) : List Nat :=
  (List.range cs.length).map fun i => now + ProbeCourse.spent (cs.take i) + b.waits k i

theorem failureNotes_concat (b : Backoff) (p : ProbeCourse × ClientError) :
    ∀ (ps : List (ProbeCourse × ClientError)) (k : Nat), failureNotes b k (ps ++ [p]) =
      failureNotes b k ps
        ++ [failed p.2 (UInt32.ofNat (k + ps.length + 1)),
          retrying (UInt32.ofNat (k + ps.length + 1))
            (b.delayFor (UInt32.ofNat (k + ps.length + 1)))]
  | [], k => rfl
  | q :: ps, k => by
      have hcount : k + 1 + ps.length = k + (ps.length + 1) := by omega
      rw [List.cons_append, failureNotes, failureNotes_concat b p ps (k + 1), failureNotes,
        List.length_cons, hcount]
      rfl

theorem starts_concat (b : Backoff) (k now : Nat) (cs : List ProbeCourse) (c : ProbeCourse) :
    starts b k now (cs ++ [c]) =
      starts b k now cs ++ [now + ProbeCourse.spent cs + b.waits k cs.length] := by
  unfold starts
  rw [List.length_append, List.length_singleton, List.range_succ, List.map_append]
  have hbefore : ∀ i ∈ List.range cs.length, (cs ++ [c]).take i = cs.take i := fun i hi =>
    List.take_append_of_le_length (Nat.le_of_lt (List.mem_range.mp hi))
  rw [List.map_singleton, List.take_left, List.map_congr_left fun i hi => by rw [hbefore i hi]]

/-! ## What the legs show -/

/-- What a lookup told in some legs. -/
def notes (legs : List Leg) : Journal := legs.flatMap (·.step.notes)

/-- When the attempts of some legs began. -/
def begun (legs : List Leg) : List Nat := legs.filterMap fun g => g.course?.map fun _ => g.time

theorem notes_concat (legs : List Leg) (g : Leg) :
    notes (legs ++ [g]) = notes legs ++ g.step.notes := by
  rw [notes, List.flatMap_append, List.flatMap_singleton]
  rfl

theorem begun_concat (legs : List Leg) (g : Leg) :
    begun (legs ++ [g]) = begun legs ++ (g.course?.map fun _ => g.time).toList := by
  rw [begun, List.filterMap_append]
  refine congrArg (begun legs ++ ·) ?_
  cases hcourse : g.course? <;>
    simp only [List.filterMap_cons, hcourse, Option.map_none, Option.map_some, List.filterMap_nil,
      Option.toList]

/-- What a lookup tells in a leg is written to the journal. -/
theorem Leg.journal_after (g : Leg) :
    g.after.hub.journal = g.world.hub.journal ++ g.step.notes := by
  obtain ⟨w, l, phase, wake⟩ := g
  rcases begins_or phase wake with hbegins | ⟨p, rfl⟩ | ⟨n, rfl, rfl⟩
  · cases hcancelled : cancelled ⟨w, l, phase, wake⟩ with
    | true => rw [after, step, World.stepLookup_stopped hbegins hcancelled]; rfl
    | false => rw [after, step, World.stepLookup_attempt hbegins hcancelled]; rfl
  · rfl
  · rfl

/-! ## Timetables -/

/-- Attempts that fail, with the errors that are told of them. -/
def Failures (ps : List (ProbeCourse × ClientError)) : Prop := ∀ p ∈ ps, p.1.FailsBy p.2

theorem Failures.concat {ps : List (ProbeCourse × ClientError)} {c : ProbeCourse} {e : ClientError}
    (hfails : Failures ps) (hc : c.FailsBy e) : Failures (ps ++ [(c, e)]) := by
  intro p hp
  rcases List.mem_append.mp hp with hold | hnew
  · exact hfails p hold
  · exact List.mem_singleton.mp hnew ▸ hc

/-- The end of the last of some attempts, of which the ones before failed. -/
def endOf (b : Backoff) (t₀ : Nat) (ps : List (ProbeCourse × ClientError)) (c : ProbeCourse) :
    Nat :=
  t₀ + ProbeCourse.spent (ps.map (·.1) ++ [c]) + b.waits 0 ps.length

/-- The timetable of a lookup that was called at `t₀` with a counter that was fresh: the courses
that its attempts met, what it told, its counter and its place, and the time at which it goes on or
came to its end. -/
inductive Timetable (l₀ : Lookup) (t₀ : Nat) :
    List ProbeCourse → Journal → Lookup → Place → Nat → Prop
  | called : Timetable l₀ t₀ [] [] l₀ .called t₀
  | probing {ps : List (ProbeCourse × ClientError)} {c : ProbeCourse} {phase : ProbePhase}
      {due : Nat} : Failures ps → c.fate.ending = phase.fate.ending →
      due + phase.fate.ms = endOf l₀.backoff t₀ ps c →
      Timetable l₀ t₀ (ps.map (·.1) ++ [c]) (failureNotes l₀.backoff 0 ps) (l₀.counting ps.length)
        (.asleep (.probing phase) due) due
  | backingOff {ps : List (ProbeCourse × ClientError)} {due : Nat} : Failures ps →
      due = t₀ + ProbeCourse.spent (ps.map (·.1)) + l₀.backoff.waits 0 ps.length →
      Timetable l₀ t₀ (ps.map (·.1)) (failureNotes l₀.backoff 0 ps) (l₀.counting ps.length)
        (.asleep (.backingOff (UInt32.ofNat ps.length)) due) due
  | found {ps : List (ProbeCourse × ClientError)} {c : ProbeCourse} {r : Recommendation} :
      Failures ps → c.Finds r →
      Timetable l₀ t₀ (ps.map (·.1) ++ [c])
        (failureNotes l₀.backoff 0 ps ++ [succeeded ⟨r, UInt32.ofNat ps.length⟩])
        { l₀ with retry := {} } (.returned (.ok ⟨r, UInt32.ofNat ps.length⟩))
        (endOf l₀.backoff t₀ ps c)
  | faulted {ps : List (ProbeCourse × ClientError)} {c : ProbeCourse} {f : Fault} :
      Failures ps → c.fate.ending = .error f →
      Timetable l₀ t₀ (ps.map (·.1) ++ [c]) (failureNotes l₀.backoff 0 ps)
        (l₀.counting ps.length) (.faulted f) (endOf l₀.backoff t₀ ps c)

theorem Leg.arrival_ne_called (g : Leg) : g.arrival ≠ .called := by
  unfold Leg.arrival
  cases g.step.next <;> exact fun heq => by cases heq

/-- A run of the probe of an attempt keeps to the timetable. -/
theorem Timetable.follow {l₀ : Lookup} {t₀ : Nat} {ps : List (ProbeCourse × ClientError)}
    {c : ProbeCourse} {g : Leg} {s : ProbeStep} (hfresh : l₀.retry = {}) (hfails : Failures ps)
    (hcount : ∀ e, c.FailsBy e → ps.length + 1 < UInt32.size)
    (hstep : g.step = (l₀.counting ps.length).follow s) (hending : c.fate.ending = s.fate.ending)
    (htime : g.time + s.fate.ms = endOf l₀.backoff t₀ ps c) :
    ∃ time, Timetable l₀ t₀ (ps.map (·.1) ++ [c])
        (failureNotes l₀.backoff 0 ps ++ g.step.notes) g.step.lookup g.arrival time
      ∧ (g.arrival.Over → g.time = time) := by
  have hretry := congrArg Lookup.retry (counting_eq hfresh ps.length)
  unfold Leg.arrival
  obtain ⟨deeds, next⟩ := s
  cases next with
  | wait phase ms =>
      have hwaits : g.step =
          { lookup := l₀.counting ps.length, deeds, next := .wait (.probing phase) ms } := hstep
      have hdue : g.world.scheduler.dueIn ms + phase.fate.ms = endOf l₀.backoff t₀ ps c := by
        rw [← htime, Scheduler.dueIn_eq, Nat.add_assoc]
        rfl
      rw [hwaits, List.append_nil]
      exact ⟨_, .probing hfails hending hdue, fun hover => by cases hover⟩
  | faulted f =>
      have hfaults : g.step =
          { lookup := l₀.counting ps.length, deeds, next := .faulted f } := hstep
      rw [hfaults, List.append_nil]
      exact ⟨_, .faulted hfails hending, fun _ => htime⟩
  | settled answer =>
      cases answer with
      | ok r =>
          have hfinds : g.step =
              { lookup := { l₀ with retry := {} }
                deeds
                notes := [succeeded ⟨r, (l₀.counting ps.length).retry.attempt⟩]
                next := .returned (.ok ⟨r, (l₀.counting ps.length).retry.attempt⟩) } := hstep
          rw [hfinds, hretry]
          exact ⟨_, .found hfails (ProbeCourse.finds_of_ending hending), fun _ => htime⟩
      | error e =>
          have hc := ProbeCourse.failsBy_of_ending hending
          have hrecord := RetryCounter.recordFailure_ofNat (hcount e hc)
          have hlength : (ps ++ [(c, e)]).length = ps.length + 1 := List.length_append
          have hbacksOff : g.step =
              { lookup := l₀.counting (ps.length + 1)
                deeds
                notes := [failed e (UInt32.ofNat (ps.length + 1)),
                  retrying (UInt32.ofNat (ps.length + 1))
                    (l₀.backoff.delayFor (UInt32.ofNat (ps.length + 1)))]
                next := .wait (.backingOff (UInt32.ofNat (ps.length + 1)))
                  (l₀.backoff.delayFor (UInt32.ofNat (ps.length + 1))) } := by
            rw [hstep]
            simp only [Lookup.follow, settle, hrecord, counting_eq hfresh]
          have hdue :
              g.world.scheduler.dueIn (l₀.backoff.delayFor (UInt32.ofNat (ps.length + 1))) =
                t₀ + ProbeCourse.spent ((ps ++ [(c, e)]).map (·.1))
                  + l₀.backoff.waits 0 (ps ++ [(c, e)]).length := by
            rw [hlength, Backoff.waits_succ, Nat.zero_add, List.map_append, ← Nat.add_assoc]
            exact congrArg (· + _) htime
          have htable : Timetable l₀ t₀ _ _ _ _ _ := .backingOff (hfails.concat hc) hdue
          rw [failureNotes_concat, hlength, List.map_append, Nat.zero_add] at htable
          rw [hbacksOff]
          exact ⟨_, htable, fun hover => by cases hover⟩

/-- A lookup that is between two attempts has a timetable of failures only, and goes on as soon as
the wait after the last of them is over. -/
theorem Timetable.failures {l₀ l : Lookup} {t₀ time : Nat} {cs : List ProbeCourse} {told : Journal}
    {place : Place} (htable : Timetable l₀ t₀ cs told l place time) {phase : Option LookupPhase}
    {wake : Wake} (honward : place.Onward phase) (hbegins : Begins phase wake) :
    ∃ ps, Failures ps ∧ cs = ps.map (·.1) ∧ told = failureNotes l₀.backoff 0 ps
      ∧ l = l₀.counting ps.length
      ∧ time = t₀ + ProbeCourse.spent cs + l₀.backoff.waits 0 ps.length := by
  cases htable with
  | called =>
      have hzero := (counting_zero l₀).symm
      exact ⟨[], fun _ h => (List.not_mem_nil h).elim, rfl, rfl, hzero, rfl⟩
  | backingOff hfails hdue => exact ⟨_, hfails, rfl, rfl, rfl, hdue⟩
  | probing => cases honward; cases hbegins
  | found | faulted => cases honward

theorem Timetable.asleep {l₀ l : Lookup} {t₀ time due : Nat} {cs : List ProbeCourse}
    {told : Journal} {phase : LookupPhase}
    (htable : Timetable l₀ t₀ cs told l (.asleep phase due) time) : time = due := by
  cases htable <;> rfl

theorem Timetable.probe {l₀ l : Lookup} {t₀ time due : Nat} {cs : List ProbeCourse}
    {told : Journal} {p : ProbePhase}
    (htable : Timetable l₀ t₀ cs told l (.asleep (.probing p) due) time) :
    ∃ ps c, Failures ps ∧ cs = ps.map (·.1) ++ [c] ∧ told = failureNotes l₀.backoff 0 ps
      ∧ l = l₀.counting ps.length ∧ c.fate.ending = p.fate.ending
      ∧ time + p.fate.ms = endOf l₀.backoff t₀ ps c := by
  cases htable with
  | probing hfails hending htime => exact ⟨_, _, hfails, rfl, rfl, rfl, hending, htime⟩

/-! ## Lookups in time -/

/-- A lookup that was called at `t₀` is in time after some legs. Its attempts began when the probes
and the waits before them were over, and it has a timetable; a lookup that has yet to run runs at
once, and one that is over ended in time. -/
structure InTime (l₀ : Lookup) (t₀ : Nat) (legs : List Leg) (s : Scene) : Prop where
  begun : begun legs = starts l₀.backoff 0 t₀ (courses legs)
  table : ∃ time, Timetable l₀ t₀ (courses legs) (notes legs) s.lookup s.place time
    ∧ (s.place = .called → s.time = time)
    ∧ (s.place.Over → ∃ g, legs.getLast? = some g ∧ g.time = time)

variable {l₀ : Lookup} {t₀ : Nat} {legs : List Leg} {s : Scene} {phase : Option LookupPhase}
  {wake : Wake}

theorem Failures.allFail {ps : List (ProbeCourse × ClientError)} (hfails : Failures ps) :
    AllFail (ps.map (·.1)) := by
  intro c hc
  obtain ⟨p, hp, rfl⟩ := List.mem_map.mp hc
  exact ⟨p.2, hfails p hp⟩

/-- After a run of its probe a lookup is in time. -/
theorem inTime_follow {ps : List (ProbeCourse × ClientError)} {c : ProbeCourse}
    (hfresh : l₀.retry = {})
    (hcount : ∀ cs, cs <+: courses (legs ++ [s.leg phase wake]) → AllFail cs →
      cs.length < UInt32.size)
    (hbegun : Lookup.begun (legs ++ [s.leg phase wake]) =
      starts l₀.backoff 0 t₀ (courses (legs ++ [s.leg phase wake])))
    (hcourses : courses (legs ++ [s.leg phase wake]) = ps.map (·.1) ++ [c])
    (hnotes : notes legs = failureNotes l₀.backoff 0 ps) (hfails : Failures ps) (st : ProbeStep)
    (hstep : (s.leg phase wake).step = (l₀.counting ps.length).follow st)
    (hending : c.fate.ending = st.fate.ending)
    (htime : s.time + st.fate.ms = endOf l₀.backoff t₀ ps c) :
    InTime l₀ t₀ (legs ++ [s.leg phase wake]) (s.ran phase wake) := by
  have hfew : ∀ e, c.FailsBy e → ps.length + 1 < UInt32.size := by
    intro e hc
    have hall := hcount _ (hcourses ▸ List.prefix_refl _) (hfails.allFail.concat hc)
    rw [List.length_append, List.length_map, List.length_singleton] at hall
    exact hall
  obtain ⟨time, htable, hend⟩ := Timetable.follow hfresh hfails hfew hstep hending htime
  refine ⟨hbegun, time, ?_, fun hplace => ?_, fun hover => ⟨_, List.getLast?_concat .., hend hover⟩⟩
  · rw [hcourses, notes_concat, hnotes]
    exact htable
  · exact absurd hplace (Leg.arrival_ne_called _)

/-- A lookup that is in time goes on in time. -/
theorem InTime.runs (hinTime : InTime l₀ t₀ legs s) (hready : s.Ready phase wake)
    (hgoes : s.cancelled = false) (hdue : ∀ phase due, s.place = .asleep phase due → s.time ≤ due)
    (hfresh : l₀.retry = {})
    (hcount : ∀ cs, cs <+: courses (legs ++ [s.leg phase wake]) → AllFail cs →
      cs.length < UInt32.size) :
    InTime l₀ t₀ (legs ++ [s.leg phase wake]) (s.ran phase wake) := by
  obtain ⟨hbegun, time, htable, hcalled, -⟩ := hinTime
  have honward := hready.onward
  have hgoes' : (s.leg phase wake).cancelled = false := hgoes
  -- It hears no token, so it is the clock that lets it go on, and the clock passes no wait.
  have hnow : s.time = time := by
    cases hplace : s.place with
    | called => exact hcalled hplace
    | asleep phase' due =>
        rw [hplace] at honward htable
        cases honward
        rw [htable.asleep]
        exact hready.time_eq_due hplace (hdue _ _ hplace) (Scene.not_hears hgoes _)
    | returned | faulted => rw [hplace] at honward; cases honward
  rcases (s.leg phase wake).step_cases with
    ⟨c, hbegins, -, hcourse, hstep⟩ | ⟨p, hphase, hcourse, hstep⟩ | ⟨told, hphase, hwhy, -, -⟩
  · obtain ⟨ps, hfails, hcs, hnotes, hl, htime⟩ := htable.failures honward hbegins
    have hcourses : courses (legs ++ [s.leg phase wake]) = ps.map (·.1) ++ [c] := by
      rw [courses_append, courses_some hcourse, hcs]
    refine inTime_follow hfresh hcount ?_ hcourses hnotes hfails (Probe.start c) ?_
      (by rw [Probe.fate_start]) ?_
    · have htime' : (s.leg phase wake).time =
          t₀ + ProbeCourse.spent (ps.map (·.1)) + l₀.backoff.waits 0 (ps.map (·.1)).length := by
        rw [List.length_map, ← hcs, ← htime, ← hnow]
        rfl
      rw [begun_concat, hcourse, hcourses, starts_concat, hbegun, hcs, ← htime']
      rfl
    · rw [hstep, hgoes', heed_false, show (s.leg phase wake).lookup = _ from hl]
    · rw [Probe.fate_start, endOf, ProbeCourse.spent_concat, ← hcs]
      omega
  · have honward' : s.place.Onward (some (.probing p)) := by
      rw [← hphase]
      exact honward
    obtain ⟨due, hplace⟩ := honward'.asleep_of
    rw [hplace] at htable
    obtain ⟨ps, c, hfails, hcs, hnotes, hl, hending, htime⟩ := htable.probe
    have hcourses : courses (legs ++ [s.leg phase wake]) = ps.map (·.1) ++ [c] := by
      rw [courses_append, courses_none hcourse, List.append_nil, hcs]
    refine inTime_follow hfresh hcount ?_ hcourses hnotes hfails (Probe.resume p) ?_
      (by rw [Probe.fate_resume, hending]) (by rw [Probe.fate_resume, hnow, htime])
    · rw [begun_concat, hcourse, hcourses, ← hcs, ← hbegun]
      exact List.append_nil _
    · rw [hstep, hgoes', heed_false, show (s.leg phase wake).lookup = _ from hl]
  · -- Nothing but its token stops a lookup between two attempts.
    rcases hwhy with hcancelled | hwake
    · exact absurd (hgoes'.symm.trans hcancelled) Bool.false_ne_true
    · cases hready with
      | called => cases hwake
      | timer => cases hwake
      | token _ hheard => exact absurd hheard (Scene.not_hears hgoes _)

/-- **A lookup keeps its timetable.** On every journey from a call with a counter that is fresh, as
long as the token is not cancelled and there are fewer than `2 ^ 32` failures, the lookup is in
time. -/
theorem journey_inTime {w₀ : World} (hjourney : Journey ⟨w₀, l₀, .called⟩ legs s)
    (hfresh : l₀.retry = {}) (hgoes : s.cancelled = false)
    (hcount : ∀ cs, cs <+: courses legs → AllFail cs → cs.length < UInt32.size) :
    InTime l₀ w₀.scheduler.now legs s := by
  induction hjourney with
  | here => exact ⟨rfl, _, .called, fun _ => rfl, fun hover => by cases hover⟩
  | passes _ hpasses ih =>
      have hgoes' : _ = false := Bool.eq_false_iff.mpr fun hcancelled =>
        Bool.false_ne_true (hgoes.symm.trans (hpasses.isCancelled hcancelled))
      obtain ⟨hbegun, time, htable, hcalled, hover⟩ := ih hgoes' hcount
      exact ⟨hbegun, time, htable,
        fun hplace => (hpasses.time_eq_of_called hplace).trans (hcalled hplace), hover⟩
  | @runs legs s phase wake hjourney hready ih =>
      have hgoes' : s.cancelled = false := by
        rw [← hgoes, Scene.cancelled, Scene.cancelled, s.ran_scheduler]
        exact congrArg _ (s.leg phase wake).step_token.symm
      have hprefix : courses legs <+: courses (legs ++ [s.leg phase wake]) := by
        rw [courses_append]
        exact List.prefix_append _ _
      have hinTime := ih hgoes' fun cs hcs => hcount cs (hcs.trans hprefix)
      exact hinTime.runs hready hgoes' (fun _ _ => hjourney.punctual) hfresh hcount

end Lookup

end GatewayClient
