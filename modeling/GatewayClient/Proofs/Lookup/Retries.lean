import GatewayClient.Proofs.Lookup.Timetable
import GatewayClient.Proofs.Scenario.Quiet

/-!
# The retries of a lookup

In a quiet world a lookup is alone with the control plane and the clock, so that not only its
timetable is known but all of the world after it. A failed attempt leads to the world of
`World.afterFailure`, with the failure counted and told and the wait over (`await_fails`), and a
successful attempt is the end (`await_finds`). The loop of a lookup is one failed attempt after the
other: its counter, the clock, the journal and the control plane agree at every turn
(`await_retries`).
-/

namespace GatewayClient

theorem ProbeStep.next_of_ending {s : ProbeStep} {answer : ProbeAnswer}
    (hend : ∀ phase ms, s.next ≠ .wait phase ms) (hending : s.fate.ending = .ok answer) :
    s.next = .settled answer := by
  obtain ⟨deeds, next⟩ := s
  cases next with
  | wait phase ms => exact absurd rfl (hend phase ms)
  | settled answer' => cases hending; rfl
  | faulted f => cases hending

namespace Lookup

theorem starts_cons (b : Backoff) (k now : Nat) (c : ProbeCourse) (cs : List ProbeCourse) :
    starts b k now (c :: cs) =
      now :: starts b (k + 1)
        (now + c.fate.ms
          + Nat.min (b.delayFor (UInt32.ofNat (k + 1))) Scheduler.longestWait) cs := by
  unfold starts
  rw [List.length_cons, List.range_succ_eq_map, List.map_cons, List.map_map]
  refine congrArg (now :: ·) (List.map_congr_left fun i _ => ?_)
  simp only [Function.comp_apply, List.take_succ_cons, ProbeCourse.spent, Backoff.waits]
  omega

/-- The failures of a lookup are told in order, each with its number: as a warning, and as a notice
of the delay before the next attempt. -/
theorem failureNotes_eq (b : Backoff) : ∀ (ps : List (ProbeCourse × ClientError)) (k : Nat),
    Failures ps → k + ps.length < UInt32.size →
    failureNotes b k ps = (ps.zipIdx (k + 1)).flatMap fun p =>
      [{ level := .warn, message := "recommended shard lookup failed",
         fields :=
           [("error", p.1.2.message), ("category", "discovery"), ("attempt", toString p.2)] },
       { level := .info, message := "retrying recommended shard lookup",
         fields :=
           [("attempt", toString p.2),
            ("delay_ms", toString (b.delayFor (UInt32.ofNat p.2)))] }]
  | [], _, _, _ => rfl
  | p :: ps, k, hfails, hfew => by
      rw [List.length_cons] at hfew
      have hcount : (UInt32.ofNat (k + 1)).toNat = k + 1 :=
        UInt32.toNat_ofNat_of_lt' (by omega)
      obtain ⟨reason, heq⟩ := (hfails p List.mem_cons_self).discovery
      have hcategory : p.2.category = "discovery" := by rw [heq]; rfl
      have hrest := failureNotes_eq b ps (k + 1)
        (fun q hq => hfails q (List.mem_cons_of_mem _ hq)) (by omega)
      rw [failureNotes, hrest, failed_eq, retrying_eq, hcount, hcategory, List.zipIdx_cons,
        List.flatMap_cons]
      rfl

end Lookup

namespace World

/-! ## The foreground of a lookup -/

/-- Goes on with a lookup in the foreground after a run of its probe. -/
def followAttempt (l : Lookup) (s : ProbeStep) (w : World) : World × (Foreground ⊕ Attained) :=
  let step := (l.follow s).heed (w.scheduler.isCancelled l.token)
  let w := w.book step
  match step.next with
  | .wait phase ms =>
    if w.scheduler.running then
      (w, .inl (.lookup step.lookup (some (phase, w.scheduler.dueIn ms))))
    else (w, .inr (.faulted (some step.lookup.retry) Scheduler.stopped))
  | .returned result => (w, .inr (.found step.lookup.retry result))
  | .faulted f => (w, .inr (.faulted (some step.lookup.retry) f))

variable {w : World} {l : Lookup}

theorem followLookup_attempt {phase : Option LookupPhase} {wake : Wake} {c : ProbeCourse}
    {plane : ControlPlane} (hbegins : Lookup.Begins phase wake)
    (htoken : w.scheduler.isCancelled l.token = false)
    (htake : w.plane.take w.scheduler.now l.request = (c, plane)) :
    w.followLookup l phase wake = { w with plane }.followAttempt l (Probe.start c) := by
  have hstep := stepLookup_attempt hbegins htoken
  rw [htake] at hstep
  simp only [followLookup, hstep, followAttempt, htoken, Lookup.heed_false]
  rfl

theorem book_nil {step : LookupStep} (hnotes : step.notes = []) :
    w.book step = w.probed step.deeds 0 := by
  simp only [book, noteAll, probed, hnotes, List.append_nil, Nat.add_zero]

theorem probing_lookup (l : Lookup) :
    Probing (fun s w => w.followAttempt l s)
      (fun phase due => .lookup l (some (.probing phase, due))) where
  due := fun _ _ => rfl
  waits := by
    intro s w phase ms hrunning hnext
    have hstep : (l.follow s).heed (w.scheduler.isCancelled l.token) =
        { lookup := l, deeds := s.deeds, next := .wait (.probing phase) ms } := by
      simp only [Lookup.follow, hnext, LookupStep.heed]
    simp only [followAttempt, hstep]
    rw [book_nil rfl]
    exact if_pos hrunning
  resumes := by
    intro phase due w hdue
    simp only [attend, hdue, if_true]
    rfl

theorem followAttempt_fails {s : ProbeStep} {e : ClientError} {k : UInt32} {retry : RetryCounter}
    (hrunning : w.scheduler.running = true) (htoken : w.scheduler.isCancelled l.token = false)
    (hnext : s.next = .settled (.error e)) (hrecord : l.retry.recordFailure = (k, retry)) :
    w.followAttempt l s =
      ((w.probed s.deeds 0).noteAll [Lookup.failed e k, Lookup.retrying k (l.backoff.delayFor k)],
        .inl (.lookup { l with retry }
          (some (.backingOff k, w.scheduler.dueIn (l.backoff.delayFor k))))) := by
  simp only [followAttempt, htoken, Lookup.heed_false, Lookup.follow, hnext, Lookup.settle, hrecord,
    book, noteAll, probed, if_pos hrunning, Nat.add_zero]

theorem followAttempt_finds {s : ProbeStep} {r : Recommendation}
    (htoken : w.scheduler.isCancelled l.token = false) (hnext : s.next = .settled (.ok r)) :
    w.followAttempt l s =
      ((w.probed s.deeds 0).noteAll [Lookup.succeeded ⟨r, l.retry.attempt⟩],
        .inr (.found {} (.ok ⟨r, l.retry.attempt⟩))) := by
  simp only [followAttempt, htoken, Lookup.heed_false, Lookup.follow, hnext, Lookup.settle,
    RetryCounter.reset, book, noteAll, probed, Nat.add_zero]

/-! ## Attempts -/

/-- The world after a failed attempt and the wait after it. -/
def afterFailure (c : ProbeCourse) (e : ClientError) (k : UInt32) (delay : Nat) (w : World) :
    World :=
  ((w.probed c.fate.deeds c.fate.ms).noteAll [Lookup.failed e k, Lookup.retrying k delay]).probed []
    (Nat.min delay Scheduler.longestWait)

section

variable {fg : Foreground} {phase : Option LookupPhase} {wake : Wake} {c : ProbeCourse}
  {plane : ControlPlane}

/-- The probe of an attempt comes to its end. -/
theorem await_attempt (hquiet : w.Quiet) (htoken : w.scheduler.isCancelled l.token = false)
    (hbegins : Lookup.Begins phase wake) (hattend : w.attend fg = w.followLookup l phase wake)
    (htake : w.plane.take w.scheduler.now l.request = (c, plane)) {answer : ProbeAnswer}
    (hending : c.fate.ending = .ok answer) :
    ∃ (s : ProbeStep) (fg' : Foreground) (w' : World) (past : List ProbeDeed) (rounds : Nat),
      rounds ≤ 3 ∧ s.next = .settled answer ∧ c.fate.deeds = past ++ s.deeds
      ∧ (∀ fuel, w.await (fuel + rounds) fg = w'.await fuel fg')
      ∧ w'.attend fg' = ({ w with plane }.probed past c.fate.ms).followAttempt l s := by
  rw [followLookup_attempt hbegins htoken htake] at hattend
  obtain ⟨s, fg', w', w₁, past, ms, rounds, hend, hrounds, hfate, hawait, hattend', hw₁⟩ :=
    (probing_lookup l).proceeds 3 (Probe.start c) fg w { w with plane }
      (fun _ _ hnext => Probe.rank_start hnext) hattend
      ⟨hquiet.running, hquiet.queue, hquiet.sleepers⟩
  rw [Probe.fate_start] at hfate
  have hending' : s.fate.ending = .ok answer := by rw [← hending, hfate]
  refine ⟨s, fg', w', past, rounds, hrounds, ProbeStep.next_of_ending hend hending',
    by rw [hfate], hawait, ?_⟩
  rw [hattend', hw₁, hfate]

/-- An attempt fails, and the wait after it comes to its end. -/
theorem await_fails (hquiet : w.Quiet) (htoken : w.scheduler.isCancelled l.token = false)
    (hbegins : Lookup.Begins phase wake) (hattend : w.attend fg = w.followLookup l phase wake)
    (htake : w.plane.take w.scheduler.now l.request = (c, plane)) {e : ClientError}
    (hfails : c.FailsBy e) {k : UInt32} {retry : RetryCounter}
    (hrecord : l.retry.recordFailure = (k, retry)) :
    ∃ rounds fg', rounds ≤ 4
      ∧ (∀ fuel, w.await (fuel + rounds) fg =
        ({ w with plane }.afterFailure c e k (l.backoff.delayFor k)).await fuel fg')
      ∧ ({ w with plane }.afterFailure c e k (l.backoff.delayFor k)).attend fg' =
        ({ w with plane }.afterFailure c e k (l.backoff.delayFor k)).followLookup
          { l with retry } (some (.backingOff k)) .timer := by
  obtain ⟨s, fg₁, w₁, past, rounds, hrounds, hnext, hdeeds, hawait, hattend₁⟩ :=
    await_attempt hquiet htoken hbegins hattend htake hfails.ending
  have hquiet₁ : ({ w with plane }.probed past c.fate.ms).Quiet :=
    ⟨hquiet.running, hquiet.queue, hquiet.sleepers⟩
  rw [followAttempt_fails hquiet₁.running htoken hnext hrecord, probed_probed, ← hdeeds,
    Nat.add_zero] at hattend₁
  generalize hdue : ({ w with plane }.probed past c.fate.ms).scheduler.dueIn
    (l.backoff.delayFor k) = due at hattend₁
  refine ⟨rounds + 1, .lookup { l with retry } (some (.backingOff k, due)),
    Nat.succ_le_succ hrounds, fun fuel => ?_, ?_⟩
  · rw [Nat.add_comm rounds 1, ← Nat.add_assoc, hawait,
      await_sleep (l.backoff.delayFor k) hattend₁ ⟨hquiet.running, hquiet.queue, hquiet.sleepers⟩
        (congrArg some hdue.symm)]
    rfl
  · exact if_pos (Nat.le_of_eq hdue.symm)

/-- An attempt finds a recommendation. -/
theorem await_finds (hquiet : w.Quiet) (htoken : w.scheduler.isCancelled l.token = false)
    (hbegins : Lookup.Begins phase wake) (hattend : w.attend fg = w.followLookup l phase wake)
    (htake : w.plane.take w.scheduler.now l.request = (c, plane)) {r : Recommendation}
    (hfinds : c.Finds r) {fuel : Nat} (hfuel : 4 ≤ fuel) :
    w.await fuel fg =
      (({ w with plane }.probed c.fate.deeds c.fate.ms).noteAll
        [Lookup.succeeded ⟨r, l.retry.attempt⟩],
        .found {} (.ok ⟨r, l.retry.attempt⟩)) := by
  obtain ⟨s, fg₁, w₁, past, rounds, hrounds, hnext, hdeeds, hawait, hattend₁⟩ :=
    await_attempt hquiet htoken hbegins hattend htake hfinds.ending
  have htoken₁ : ({ w with plane }.probed past c.fate.ms).scheduler.isCancelled l.token = false :=
    htoken
  rw [followAttempt_finds htoken₁ hnext, probed_probed, ← hdeeds, Nat.add_zero] at hattend₁
  obtain ⟨rest, rfl⟩ : ∃ rest, fuel = rest + 1 + rounds := ⟨fuel - 1 - rounds, by omega⟩
  rw [hawait, await_done hattend₁]

end

/-! ## The loop -/

/-- The world after attempts that fail, `k` others before them, and one that finds `r`. -/
def afterRetries (l : Lookup) (k : Nat) (fails : List (ProbeCourse × ClientError))
    (c : ProbeCourse) (r : Recommendation) (rest : List ProbeCourse) (w : World) : World :=
  let courses := fails.map (·.1) ++ [c]
  let now := w.scheduler.now
  { w with
    plane := ControlPlane.tally
      { w.plane with
        script := rest
        probes := w.plane.probes
          ++ (Lookup.starts l.backoff k now courses).map fun t => ⟨t, l.request⟩ }
      (Lookup.deedsOn courses)
    scheduler :=
      { w.scheduler with
        now := now + ProbeCourse.spent courses + l.backoff.waits k fails.length }
    hub :=
      { w.hub with
        journal := w.hub.journal
          ++ (Lookup.failureNotes l.backoff k fails
            ++ [Lookup.succeeded ⟨r, UInt32.ofNat (k + fails.length)⟩]) } }

theorem take_cons {p : ControlPlane} {c : ProbeCourse} {rest : List ProbeCourse}
    (hscript : p.script = c :: rest) (now : Nat) (request : ProbeRequest) :
    p.take now request =
      (c, { p with script := rest, probes := p.probes ++ [⟨now, request⟩] }) := by
  simp only [ControlPlane.take, hscript]

theorem afterRetries_cons (l : Lookup) (k : Nat) (p : ProbeCourse × ClientError)
    (fails : List (ProbeCourse × ClientError)) (c : ProbeCourse) (r : Recommendation)
    (rest script : List ProbeCourse) (retry : RetryCounter) (w : World) :
    afterRetries { l with retry } (k + 1) fails c r rest
        (afterFailure p.1 p.2 (UInt32.ofNat (k + 1)) (l.backoff.delayFor (UInt32.ofNat (k + 1)))
          { w with
            plane :=
              { w.plane with
                script
                probes := w.plane.probes ++ [⟨w.scheduler.now, l.request⟩] } }) =
      w.afterRetries l k (p :: fails) c r rest := by
  have hcount : k + 1 + fails.length = k + (fails.length + 1) := by omega
  have htime : ∀ t a d b e : Nat, t + a + d + b + e = t + (a + b) + (d + e) := by omega
  simp only [afterRetries, afterFailure, probed, noteAll, List.map_cons, List.cons_append,
    Lookup.starts_cons, Lookup.deedsOn, List.flatMap_cons, ControlPlane.tally,
    Lookup.failureNotes, ProbeCourse.spent, Backoff.waits, List.length_cons, List.append_assoc,
    List.count_append, List.nil_append]
  rw [hcount, htime]
  simp only [List.count_nil, Nat.add_zero, Nat.add_assoc]

/-- The loop of a lookup, from an attempt on. -/
theorem await_retries {c : ProbeCourse} {r : Recommendation} (hfinds : c.Finds r)
    {rest : List ProbeCourse} :
    ∀ (fails : List (ProbeCourse × ClientError)) (k : Nat) (l : Lookup) (w : World)
      (fg : Foreground) (phase : Option LookupPhase) (wake : Wake) (fuel : Nat),
      w.Quiet → w.scheduler.isCancelled l.token = false → l.retry = ⟨UInt32.ofNat k⟩ →
      k + fails.length < UInt32.size → (∀ p ∈ fails, p.1.FailsBy p.2) →
      w.plane.script = fails.map (·.1) ++ c :: rest → Lookup.Begins phase wake →
      w.attend fg = w.followLookup l phase wake → 4 * (fails.length + 1) ≤ fuel →
      w.await fuel fg =
        (w.afterRetries l k fails c r rest,
          .found {} (.ok ⟨r, UInt32.ofNat (k + fails.length)⟩))
  | [], k, l, w, fg, phase, wake, fuel, hquiet, htoken, hretry, _, _, hscript, hbegins, hattend,
      hfuel => by
      rw [await_finds hquiet htoken hbegins hattend (take_cons hscript _ _) hfinds hfuel, hretry]
      simp only [afterRetries, List.map_nil, List.nil_append, Lookup.starts, List.length_singleton,
        List.length_nil, Lookup.deedsOn, List.flatMap_singleton, ProbeCourse.spent, Backoff.waits,
        Lookup.failureNotes, Nat.add_zero]
      rfl
  | p :: fails, k, l, w, fg, phase, wake, fuel, hquiet, htoken, hretry, hlt, hfails, hscript,
      hbegins, hattend, hfuel => by
      rw [List.length_cons] at hlt hfuel
      have hrecord : l.retry.recordFailure = (UInt32.ofNat (k + 1), ⟨UInt32.ofNat (k + 1)⟩) := by
        rw [hretry]
        exact RetryCounter.recordFailure_ofNat (by omega)
      obtain ⟨rounds, fg', hrounds, hawait, hattend'⟩ :=
        await_fails hquiet htoken hbegins hattend (take_cons hscript _ _)
          (hfails p (List.mem_cons_self ..)) hrecord
      obtain ⟨fuel', rfl⟩ : ∃ fuel', fuel = fuel' + rounds := ⟨fuel - rounds, by omega⟩
      generalize hw₁ : afterFailure _ _ _ _ _ = w₁ at hawait hattend'
      have hquiet₁ : w₁.Quiet := hw₁ ▸ ⟨hquiet.running, hquiet.queue, hquiet.sleepers⟩
      have htoken₁ : w₁.scheduler.isCancelled l.token = false := hw₁ ▸ htoken
      have hscript₁ : w₁.plane.script = fails.map (·.1) ++ c :: rest := hw₁ ▸ rfl
      have hloop := await_retries hfinds fails (k + 1) { l with retry := ⟨UInt32.ofNat (k + 1)⟩ } w₁
        fg' _ .timer fuel' hquiet₁ htoken₁ rfl (by omega)
        (fun q hq => hfails q (List.mem_cons_of_mem _ hq)) hscript₁
        (.backedOff fun heq => by cases heq) hattend' (by omega)
      have hcount : k + 1 + fails.length = k + (fails.length + 1) := by omega
      rw [hawait, hloop, ← hw₁, List.length_cons, hcount]
      exact congrArg (·, _) (afterRetries_cons l k p fails c r rest _ _ w)

section

variable {fails : List (ProbeCourse × ClientError)} {c : ProbeCourse} {r : Recommendation}
  {rest : List ProbeCourse}

/-- The wait for a lookup with a fresh counter, when all attempts before one fail. -/
theorem waitFor_lookup (hquiet : w.Quiet) (htoken : w.scheduler.isCancelled l.token = false)
    (hfresh : l.retry = {}) (hscript : w.plane.script = fails.map (·.1) ++ c :: rest)
    (hfails : ∀ p ∈ fails, p.1.FailsBy p.2) (hfinds : c.Finds r)
    (hcount : fails.length < UInt32.size) :
    w.waitFor (.lookup l none) =
      ({ w.afterRetries l 0 fails c r rest with retry := {} },
        .found (.ok ⟨r, UInt32.ofNat fails.length⟩) 0
          (w.scheduler.now + (ProbeCourse.spent (fails.map (·.1) ++ [c])
            + l.backoff.waits 0 fails.length))) := by
  have hpatience : 4 * (fails.length + 1) ≤ patience := by
    have hsize : UInt32.size = 4294967296 := rfl
    unfold patience
    omega
  have hloop := await_retries hfinds fails 0 l w (.lookup l none) none .started patience hquiet
    htoken hfresh (by rw [Nat.zero_add]; exact hcount) hfails hscript .called rfl hpatience
  rw [waitFor, hloop, Nat.zero_add, ← Nat.add_assoc]
  rfl

/-- **The loop of a lookup.** In a quiet world, with a counter that is fresh and no cancellation, a
lookup whose first attempts fail, fewer than `2 ^ 32` and each in any way, and whose next attempt
finds `r`, returns `r` with the number of failures, and its counter is zero again. The world after
it is that of `afterRetries`: the control plane has seen one attempt more than failed, each after
the wait of the one before, of `delayFor` its number or the longest wait of the clock where that is
shorter; and the time that has passed is that of the probes and of the waits. The journal has grown
by a warning of each failure, of its category and with its number, each followed by a notice of the
delay, and by the record of the success at the end.

In a world that is not quiet the lookup is in time all the same, whatever its attempts meet: at
every point of every journey without a cancellation its attempts have begun, its failures were told
and its place is as the courses so far have it, and no failure has ended it. What it tells is
written to the journal. -/
theorem waitFor_retries (hquiet : w.Quiet) (htoken : w.scheduler.isCancelled l.token = false)
    (hfresh : l.retry = {}) (hscript : w.plane.script = fails.map (·.1) ++ c :: rest)
    (hfails : ∀ p ∈ fails, p.1.FailsBy p.2) (hfinds : c.Finds r)
    (hcount : fails.length < UInt32.size) :
    w.waitFor (.lookup l none) =
        ({ w.afterRetries l 0 fails c r rest with retry := {} },
          .found (.ok ⟨r, UInt32.ofNat fails.length⟩) 0
            (w.scheduler.now + (ProbeCourse.spent (fails.map (·.1) ++ [c])
              + l.backoff.waits 0 fails.length)))
      ∧ (w.afterRetries l 0 fails c r rest).plane.probes.length =
        w.plane.probes.length + (fails.length + 1)
      ∧ (∀ p ∈ fails, p.2.category = "discovery")
      ∧ (w.waitFor (.lookup l none)).1.hub.journal = w.hub.journal
        ++ (((fails.zipIdx 1).flatMap fun p =>
            [{ level := .warn, message := "recommended shard lookup failed",
               fields :=
                 [("error", p.1.2.message), ("category", "discovery"), ("attempt", toString p.2)] },
             { level := .info, message := "retrying recommended shard lookup",
               fields :=
                 [("attempt", toString p.2),
                  ("delay_ms", toString (l.backoff.delayFor (UInt32.ofNat p.2)))] }])
          ++ [{ level := .debug, message := "recommended shard lookup succeeded",
                fields :=
                  [("shard_count", toString r.shardCount.toNat), ("endpoint", r.endpoint),
                   ("retries", toString fails.length)] }])
      ∧ ∀ (w₀ : World) (legs : List Lookup.Leg) (s : Lookup.Scene),
        Lookup.Journey ⟨w₀, l, .called⟩ legs s → s.cancelled = false →
        (∀ cs, cs <+: Lookup.courses legs → Lookup.AllFail cs → cs.length < UInt32.size) →
        Lookup.InTime l w₀.scheduler.now legs s
          ∧ ∀ g ∈ legs, g.after.hub.journal = g.world.hub.journal ++ g.step.notes := by
  have hfound := waitFor_lookup hquiet htoken hfresh hscript hfails hfinds hcount
  refine ⟨hfound, ?_, fun p hp => ?_, ?_,
    fun w₀ legs s hjourney hgoes hfew =>
      ⟨Lookup.journey_inTime hjourney hfresh hgoes hfew, fun g _ => g.journal_after⟩⟩
  · simp only [afterRetries, ControlPlane.tally, List.length_append, List.length_map,
      Lookup.starts, List.length_range, List.length_singleton]
  · obtain ⟨reason, heq⟩ := (hfails p hp).discovery
    rw [heq]
    rfl
  · have hretries : (UInt32.ofNat fails.length).toNat = fails.length :=
      UInt32.toNat_ofNat_of_lt' hcount
    rw [hfound]
    show w.hub.journal ++ (Lookup.failureNotes l.backoff 0 fails
      ++ [Lookup.succeeded ⟨r, UInt32.ofNat (0 + fails.length)⟩]) = _
    rw [Lookup.failureNotes_eq l.backoff fails 0 hfails (by omega), Lookup.succeeded_eq,
      Nat.zero_add, Nat.zero_add, hretries]

end

/-- Attempts of which the control plane refuses the session. -/
def refusals : List (ProbeCourse × ClientError) :=
  [({ opening := .refusal (.connection "down"), query := .fault .wordless },
    ClientError.asDiscovery (.connection "down"))]

/-- An attempt that finds a recommendation after five milliseconds. -/
def answered : ProbeCourse := { queryDelay := some 5, query := .answer ⟨"wss://g", 2⟩ }

/-- A world whose control plane refuses an attempt and answers the next one. -/
def refusingWorld : World where
  plane := { script := refusals.map (·.1) ++ [answered] }

theorem failsBy_of_mem_refusals : ∀ p ∈ refusals, p.1.FailsBy p.2 := by
  intro p hp
  rw [List.mem_singleton.mp hp]
  exact .opening (e := .connection "down") rfl

/-- A lookup without a token that waits by a rule. -/
def lookupBy (backoff : Backoff) : Lookup := { request := plainProbe, backoff, token := none }

theorem waitFor_retries_refusals :
    (refusingWorld.waitFor (.lookup (lookupBy {}) none)).2 =
      .found (.ok ⟨⟨"wss://g", 2⟩, 1⟩) 0 1005 := by
  have hretries := waitFor_retries (w := refusingWorld) (l := lookupBy {}) ⟨rfl, rfl, rfl⟩ rfl rfl
    rfl failsBy_of_mem_refusals (c := answered) ⟨rfl, rfl, rfl⟩ (by decide)
  have htime : refusingWorld.scheduler.now + (ProbeCourse.spent (refusals.map (·.1) ++ [answered])
      + (lookupBy {}).backoff.waits 0 refusals.length) = 1005 := by decide +kernel
  rw [hretries.1, htime]
  rfl

/-- The clock cuts a wait of more than thirty years short. -/
theorem waitFor_cuts_long_wait :
    ∃ time, (refusingWorld.waitFor
        (.lookup (lookupBy { baseDelayMs := 1000000000000, maxDelayMs := 1000000000000 }) none)).2 =
          .found (.ok ⟨⟨"wss://g", 2⟩, 1⟩) 0 time
      ∧ time ≠ refusingWorld.scheduler.now + ProbeCourse.spent refusingWorld.plane.script
        + Backoff.delayFor { baseDelayMs := 1000000000000, maxDelayMs := 1000000000000 } 1 := by
  have hfound := waitFor_lookup (w := refusingWorld)
    (l := lookupBy { baseDelayMs := 1000000000000, maxDelayMs := 1000000000000 })
    ⟨rfl, rfl, rfl⟩ rfl rfl rfl failsBy_of_mem_refusals (c := answered) ⟨rfl, rfl, rfl⟩ (by decide)
  refine ⟨_, congrArg Prod.snd hfound, ?_⟩
  decide +kernel

end World

end GatewayClient
