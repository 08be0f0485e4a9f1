import GatewayClient.Scenario.World

/-!
# The fate of a probe

The course of a probe fixes everything about it before it starts: what it does with its session,
how long it takes and what it comes to. Between two waits the same is fixed of the rest of the
probe. So the fate of a probe is a prophecy that each of its runs fulfils in part: a run and the
fate of the phase in which it leaves the probe make up the fate before the run
(`Probe.fate_start`, `Probe.fate_resume`). The phases go one way (`ProbePhase.rank`), so a probe
comes to an end.
-/

namespace GatewayClient

/-- The time that a wait takes; a part without a duration takes none. -/
def Scheduler.span : Option Nat → Nat
  | none => 0
  | some ms => Nat.min ms longestWait

theorem Scheduler.dueIn_eq (ms : Nat) (r : Scheduler) : r.dueIn ms = r.now + span (some ms) := rfl

/-- What is to come of a probe: what it does with its session, how long it takes, and the answer
or the fault with which it ends. -/
structure ProbeFate where
  deeds : List ProbeDeed
  ms : Nat
  ending : Except Fault ProbeAnswer

/-- How a probe ends whose session is closed. -/
def ProbeCourse.closing (c : ProbeCourse) (answer : ProbeAnswer) : Except Fault ProbeAnswer :=
  match c.closeFault with
  | some f => .error f
  | none => .ok answer

/-- The fate of a probe after the wait of a phase. -/
def ProbePhase.fate : ProbePhase → ProbeFate
  | opening c =>
    match c.opening with
    | .answer _ =>
      ⟨[.opened, .queried, .closed],
        Scheduler.span c.queryDelay + Scheduler.span c.closeDelay, c.closing c.outcome⟩
    | .refusal e => ⟨[], 0, .ok (.error e.asDiscovery)⟩
    | .fault f => ⟨[], 0, .error f⟩
  | querying c => ⟨[.closed], Scheduler.span c.closeDelay, c.closing c.outcome⟩
  | closing c answer => ⟨[], 0, c.closing answer⟩

/-- The fate of a probe that takes a course. -/
def ProbeCourse.fate (c : ProbeCourse) : ProbeFate :=
  { (ProbePhase.opening c).fate with
    ms := Scheduler.span c.openDelay + (ProbePhase.opening c).fate.ms }

/-- The fate of a probe from one of its runs on. -/
def ProbeStep.fate (s : ProbeStep) : ProbeFate :=
  match s.next with
  | .wait phase ms =>
    ⟨s.deeds ++ phase.fate.deeds, Scheduler.span (some ms) + phase.fate.ms, phase.fate.ending⟩
  | .settled answer => ⟨s.deeds, 0, .ok answer⟩
  | .faulted f => ⟨s.deeds, 0, .error f⟩

/-- How many waits a probe can still have after the wait of a phase. -/
def ProbePhase.rank : ProbePhase → Nat
  | opening _ => 2
  | querying _ => 1
  | closing .. => 0

namespace Probe

theorem fate_finish (deeds : List ProbeDeed) (c : ProbeCourse) (answer : ProbeAnswer) :
    ProbeStep.fate ⟨deeds, finish c answer⟩ = ⟨deeds, 0, c.closing answer⟩ := by
  unfold finish ProbeCourse.closing
  cases c.closeFault <;> rfl

theorem fate_after (deed : ProbeDeed) (s : ProbeStep) :
    (s.after deed).fate = { s.fate with deeds := deed :: s.fate.deeds } := by
  obtain ⟨deeds, next⟩ := s
  cases next <;> rfl

theorem fate_close (c : ProbeCourse) : (close c).fate = (ProbePhase.querying c).fate := by
  cases hdelay : c.closeDelay with
  | none =>
      simp only [close, ProbePhase.fate, hdelay]
      exact fate_finish [.closed] c c.outcome
  | some ms => simp only [close, ProbeStep.fate, ProbePhase.fate, hdelay]; rfl

theorem fate_query (c : ProbeCourse) :
    (query c).fate =
      ⟨[.queried, .closed], Scheduler.span c.queryDelay + Scheduler.span c.closeDelay,
        c.closing c.outcome⟩ := by
  cases hdelay : c.queryDelay with
  | none =>
      have hquery : query c = (close c).after .queried := by simp only [query, hdelay]
      rw [hquery, fate_after, fate_close]
      simp only [ProbePhase.fate, Scheduler.span, Nat.zero_add]
  | some ms => simp only [query, hdelay, ProbeStep.fate, ProbePhase.fate]; rfl

theorem fate_enter (c : ProbeCourse) : (enter c).fate = (ProbePhase.opening c).fate := by
  cases hopening : c.opening with
  | answer a =>
      have henter : enter c = (query c).after .opened := by simp only [enter, hopening]
      rw [henter, fate_after, fate_query]
      simp only [ProbePhase.fate, hopening]
  | refusal e => simp only [enter, hopening, ProbeStep.fate, ProbePhase.fate]
  | fault f => simp only [enter, hopening, ProbeStep.fate, ProbePhase.fate]

/-- A probe fulfils its fate from the start. -/
theorem fate_start (c : ProbeCourse) : (start c).fate = c.fate := by
  cases hdelay : c.openDelay with
  | none =>
      have hstart : start c = enter c := by simp only [start, hdelay]
      rw [hstart, fate_enter]
      simp only [ProbeCourse.fate, hdelay, Scheduler.span, Nat.zero_add]
  | some ms => simp only [start, hdelay, ProbeStep.fate, ProbeCourse.fate, List.nil_append]

/-- A probe goes on to fulfil the fate of the phase that it was in. -/
theorem fate_resume (phase : ProbePhase) : (resume phase).fate = phase.fate := by
  cases phase with
  | opening c => exact fate_enter c
  | querying c => exact fate_close c
  | closing c answer => exact fate_finish [] c answer

/-! ## The phases go one way -/

theorem finish_ne_wait (c : ProbeCourse) (answer : ProbeAnswer) (phase : ProbePhase) (ms : Nat) :
    finish c answer ≠ .wait phase ms := by
  unfold finish
  cases c.closeFault <;> exact fun heq => by cases heq

theorem rank_close {c : ProbeCourse} {phase : ProbePhase} {ms : Nat}
    (hnext : (close c).next = .wait phase ms) : phase.rank = 0 := by
  unfold close at hnext
  cases hdelay : c.closeDelay with
  | none => rw [hdelay] at hnext; exact (finish_ne_wait _ _ _ _ hnext).elim
  | some d => rw [hdelay] at hnext; cases hnext; rfl

theorem rank_query {c : ProbeCourse} {phase : ProbePhase} {ms : Nat}
    (hnext : (query c).next = .wait phase ms) : phase.rank < 2 := by
  unfold query at hnext
  cases hdelay : c.queryDelay with
  | none =>
      rw [hdelay] at hnext
      have hrank := rank_close (c := c) hnext
      omega
  | some d => rw [hdelay] at hnext; cases hnext; exact Nat.lt_succ_self 1

theorem rank_enter {c : ProbeCourse} {phase : ProbePhase} {ms : Nat}
    (hnext : (enter c).next = .wait phase ms) : phase.rank < 2 := by
  unfold enter at hnext
  cases hopening : c.opening with
  | answer a => rw [hopening] at hnext; exact rank_query (c := c) hnext
  | refusal e => rw [hopening] at hnext; cases hnext
  | fault f => rw [hopening] at hnext; cases hnext

theorem rank_start {c : ProbeCourse} {phase : ProbePhase} {ms : Nat}
    (hnext : (start c).next = .wait phase ms) : phase.rank < 3 := by
  unfold start at hnext
  cases hdelay : c.openDelay with
  | none =>
      rw [hdelay] at hnext
      have hrank := rank_enter (c := c) hnext
      omega
  | some d => rw [hdelay] at hnext; cases hnext; exact Nat.lt_succ_self 2

theorem rank_resume {phase phase' : ProbePhase} {ms : Nat}
    (hnext : (resume phase).next = .wait phase' ms) : phase'.rank < phase.rank := by
  cases phase with
  | opening c => exact rank_enter (c := c) hnext
  | querying c =>
      have hrank := rank_close (c := c) hnext
      rw [hrank]
      exact Nat.zero_lt_one
  | closing c answer => exact (finish_ne_wait _ _ _ _ hnext).elim

end Probe

/-! ## Success and failure -/

/-- The ways in which an attempt fails, with the error that is told of it. -/
inductive ProbeCourse.FailsBy (c : ProbeCourse) : ClientError → Prop
  | opening {e : ClientError} : c.opening = .refusal e → FailsBy c e.asDiscovery
  | query {e : ClientError} :
      c.opening = .answer () → c.query = .refusal e → c.closeFault = none →
        FailsBy c e.asDiscovery
  | queryFault {f : Fault} :
      c.opening = .answer () → c.query = .fault f → c.closeFault = none →
        FailsBy c (.discovery "recommended shard query panicked")

/-- An attempt on a course finds a recommendation. -/
structure ProbeCourse.Finds (c : ProbeCourse) (r : Recommendation) : Prop where
  opening : c.opening = .answer ()
  query : c.query = .answer r
  close : c.closeFault = none

namespace ProbeCourse

theorem FailsBy.ending {c : ProbeCourse} {e : ClientError} (hfails : c.FailsBy e) :
    c.fate.ending = .ok (.error e) := by
  cases hfails with
  | opening hopening => simp only [fate, ProbePhase.fate, hopening]
  | query hopening hquery hclose =>
      simp only [fate, ProbePhase.fate, hopening, closing, hclose, outcome, hquery]
  | queryFault hopening hquery hclose =>
      simp only [fate, ProbePhase.fate, hopening, closing, hclose, outcome, hquery]

theorem Finds.ending {c : ProbeCourse} {r : Recommendation} (hfinds : c.Finds r) :
    c.fate.ending = .ok (.ok r) := by
  simp only [fate, ProbePhase.fate, hfinds.opening, closing, hfinds.close, outcome, hfinds.query]

theorem ending_of_opened {c : ProbeCourse} {answer : ProbeAnswer}
    (hopening : c.opening = .answer ()) (hending : c.fate.ending = .ok answer) :
    c.closeFault = none ∧ c.outcome = answer := by
  simp only [fate, ProbePhase.fate, hopening, closing] at hending
  cases hclose : c.closeFault with
  | some f => rw [hclose] at hending; cases hending
  | none => rw [hclose] at hending; exact ⟨rfl, Except.ok.inj hending⟩

theorem failsBy_of_ending {c : ProbeCourse} {e : ClientError}
    (hending : c.fate.ending = .ok (.error e)) : c.FailsBy e := by
  cases hopening : c.opening with
  | refusal e' =>
      simp only [fate, ProbePhase.fate, hopening] at hending
      cases hending
      exact .opening hopening
  | fault f => simp only [fate, ProbePhase.fate, hopening] at hending; cases hending
  | answer a =>
      obtain ⟨hclose, houtcome⟩ := ending_of_opened hopening hending
      unfold outcome at houtcome
      cases hquery : c.query with
      | answer r => rw [hquery] at houtcome; cases houtcome
      | refusal e' => rw [hquery] at houtcome; cases houtcome; exact .query hopening hquery hclose
      | fault f => rw [hquery] at houtcome; cases houtcome; exact .queryFault hopening hquery hclose

theorem finds_of_ending {c : ProbeCourse} {r : Recommendation}
    (hending : c.fate.ending = .ok (.ok r)) : c.Finds r := by
  cases hopening : c.opening with
  | refusal e => simp only [fate, ProbePhase.fate, hopening] at hending; cases hending
  | fault f => simp only [fate, ProbePhase.fate, hopening] at hending; cases hending
  | answer a =>
      obtain ⟨hclose, houtcome⟩ := ending_of_opened hopening hending
      unfold outcome at houtcome
      cases hquery : c.query with
      | answer r' => rw [hquery] at houtcome; cases houtcome; exact ⟨hopening, hquery, hclose⟩
      | refusal e => rw [hquery] at houtcome; cases houtcome
      | fault f => rw [hquery] at houtcome; cases houtcome

end ProbeCourse

theorem ClientError.asDiscovery_eq (e : ClientError) :
    ∃ reason, e.asDiscovery = .discovery reason := by
  cases e <;> exact ⟨_, rfl⟩

/-- Every failed attempt is told as an error of the lookup. -/
theorem ProbeCourse.FailsBy.discovery {c : ProbeCourse} {e : ClientError} (hfails : c.FailsBy e) :
    ∃ reason, e = .discovery reason := by
  cases hfails with
  | opening | query => exact ClientError.asDiscovery_eq _
  | queryFault => exact ⟨_, rfl⟩

end GatewayClient
