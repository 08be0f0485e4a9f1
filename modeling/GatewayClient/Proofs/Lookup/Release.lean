import GatewayClient.Proofs.Lookup.Journey
import GatewayClient.Proofs.Scenario.Quiet

/-!
# Sessions are released

What a lookup does with its sessions is read off its books: each attempt opens a session, asks it
and closes it, or does nothing with one if the opening failed, and the attempts come one after the
other. `SessionUse` is the rule that a session obeys, and `trail_releases_sessions` says that the
deeds of every trail obey it, that a session is held over a wait only while its query is under way,
and that none is left behind when the lookup returns.
-/

namespace GatewayClient

/-! ## The use of a session -/

/-- How far a session is used: there is none, it was opened, or it was asked. -/
inductive SessionUse
  | idle
  | opened
  | asked
deriving DecidableEq

namespace SessionUse

/-- What a deed makes of a session. Only a session that was opened is asked, and only one that was
asked is closed. -/
def next : SessionUse → ProbeDeed → Option SessionUse
  | idle, .opened => some opened
  | opened, .queried => some asked
  | asked, .closed => some idle
  | _, _ => none

def after : SessionUse → List ProbeDeed → Option SessionUse
  | u, [] => some u
  | u, d :: ds => (u.next d).bind (after · ds)

/-- How many sessions are held. -/
def held : SessionUse → Nat
  | idle => 0
  | opened | asked => 1

theorem after_append (ds ds' : List ProbeDeed) (u : SessionUse) :
    u.after (ds ++ ds') = (u.after ds).bind (after · ds') := by
  induction ds generalizing u with
  | nil => rfl
  | cons d ds ih =>
      rw [List.cons_append, after, after]
      cases u.next d with
      | none => rfl
      | some u' => exact ih u'

theorem next_held {u u' : SessionUse} {d : ProbeDeed} (hnext : u.next d = some u') :
    u.held + [d].count .opened = [d].count .closed + u'.held := by
  cases u <;> cases d <;> cases hnext <;> rfl

/-- The sessions that were opened are the ones that were closed and the one that is held. -/
theorem count_opened {u u' : SessionUse} {ds : List ProbeDeed} (hafter : u.after ds = some u') :
    u.held + ds.count .opened = ds.count .closed + u'.held := by
  induction ds generalizing u with
  | nil =>
      cases hafter
      exact (Nat.zero_add _).symm
  | cons d ds ih =>
      obtain ⟨v, hnext, hrest⟩ := Option.bind_eq_some_iff.mp hafter
      have hd := next_held hnext
      have hds := ih hrest
      rw [← List.singleton_append, List.count_append, List.count_append]
      omega

end SessionUse

/-! ## The sessions of attempts -/

/-- What an attempt on a course does with its session. -/
def ProbeCourse.sessionDeeds (c : ProbeCourse) : List ProbeDeed :=
  match c.opening with
  | .answer _ => [.opened, .queried, .closed]
  | _ => []

theorem ProbeCourse.deeds_eq (c : ProbeCourse) : c.fate.deeds = c.sessionDeeds := by
  unfold sessionDeeds
  cases hopening : c.opening <;> simp only [fate, ProbePhase.fate, hopening]

theorem ProbeCourse.sessionDeeds_cases (c : ProbeCourse) :
    c.sessionDeeds = [] ∨ c.sessionDeeds = [.opened, .queried, .closed] := by
  unfold sessionDeeds
  cases c.opening with
  | answer a => exact .inr rfl
  | _ => exact .inl rfl

/-- How far the session of a probe is used while it waits in a phase. -/
def ProbePhase.use : ProbePhase → SessionUse
  | querying _ => .asked
  | _ => .idle

/-- How far a session is used while a lookup does not run. -/
def Lookup.Place.use : Place → SessionUse
  | asleep (.probing phase) _ => phase.use
  | _ => .idle

/-- The deeds before the wait of a phase are what the session has been used for. -/
theorem ProbePhase.after_past {c : ProbeCourse} {past : List ProbeDeed} {phase : ProbePhase}
    (hdeeds : c.fate.deeds = past ++ phase.fate.deeds) :
    SessionUse.idle.after past = some phase.use := by
  rw [ProbeCourse.deeds_eq] at hdeeds
  have hwhole : ∀ rest, c.sessionDeeds = past ++ rest →
      rest = [] ∨ rest = [.opened, .queried, .closed] →
      SessionUse.idle.after past = some .idle := by
    intro rest hpast hrest
    rcases hrest with rfl | rfl
    · rw [List.append_nil] at hpast
      rw [← hpast]
      rcases c.sessionDeeds_cases with hnone | hall
      · rw [hnone]; rfl
      · rw [hall]; rfl
    · have hlength := congrArg List.length hpast
      have hempty : past = [] := by
        rcases c.sessionDeeds_cases with hnone | hall
        · rw [hnone] at hpast
          exact (List.append_eq_nil_iff.mp hpast.symm).1
        · rw [hall, List.length_append] at hlength
          exact List.eq_nil_of_length_eq_zero (by simpa using hlength)
      rw [hempty]
      rfl
  cases phase with
  | opening c' => exact hwhole _ hdeeds (by rw [fate]; cases c'.opening <;> simp)
  | closing c' answer => exact hwhole _ hdeeds (.inl rfl)
  | querying c' =>
      rcases c.sessionDeeds_cases with hnone | hall
      · rw [hnone] at hdeeds
        exact absurd (List.append_eq_nil_iff.mp hdeeds.symm).2 (List.cons_ne_nil _ _)
      · rw [hall] at hdeeds
        have hsplit : ([.opened, .queried] ++ [.closed] : List ProbeDeed) = past ++ [.closed] :=
          hdeeds
        rw [← List.append_inj_left' hsplit rfl]
        rfl

namespace Lookup

theorem after_deedsOn (cs : List ProbeCourse) (ds : List ProbeDeed) :
    SessionUse.idle.after (deedsOn cs ++ ds) = SessionUse.idle.after ds := by
  induction cs with
  | nil => rfl
  | cons c cs ih =>
      have hcons : deedsOn (c :: cs) ++ ds = c.sessionDeeds ++ (deedsOn cs ++ ds) := by
        rw [← ProbeCourse.deeds_eq, ← List.append_assoc]
        rfl
      rw [hcons, SessionUse.after_append]
      rcases c.sessionDeeds_cases with hnone | hall
      · rw [hnone]; exact ih
      · rw [hall]; exact ih

/-- The deeds of a lookup are the ones of its attempts, the last of which may be under way. -/
theorem Books.deeds {l₀ l : Lookup} {cs : List ProbeCourse} {ds : List ProbeDeed} {place : Place}
    (hbooks : Books l₀ cs ds l place) :
    ∃ done past, ds = deedsOn done ++ past ∧ SessionUse.idle.after past = some place.use
      ∧ (cs = done ∧ past = [] ∨ ∃ c, cs = done ++ [c] ∧ past <+: c.sessionDeeds) := by
  cases hbooks with
  | @probing cs c past phase due hfail hdeeds hending =>
      refine ⟨cs, past, rfl, ProbePhase.after_past hdeeds, .inr ⟨c, rfl, ?_⟩⟩
      rw [← ProbeCourse.deeds_eq, hdeeds]
      exact List.prefix_append _ _
  | called => exact ⟨[], [], rfl, rfl, .inl ⟨rfl, rfl⟩⟩
  | _ => exact ⟨_, [], (List.append_nil _).symm, rfl, .inl ⟨rfl, rfl⟩⟩

theorem Books.deeds_returned {l₀ l : Lookup} {cs : List ProbeCourse} {ds : List ProbeDeed}
    {result : Except ClientError LookupReport} (hbooks : Books l₀ cs ds l (.returned result)) :
    ds = deedsOn cs := by
  cases hbooks <;> rfl

theorem deedsOn_eq (cs : List ProbeCourse) : deedsOn cs = cs.flatMap ProbeCourse.sessionDeeds := by
  unfold deedsOn
  exact congrArg (cs.flatMap ·) (funext ProbeCourse.deeds_eq)

end Lookup

/-! ## A probe that stands alone -/

/-- What the end of a probe that stands alone attains. -/
def Attained.ofEnding : Except Fault ProbeAnswer → Attained
  | .ok answer => .probed answer
  | .error f => .faulted none f

namespace World

/-- A run of a probe that stands alone leaves it asleep, or it is the end of the probe. -/
theorem followProbe_cases {w : World} (hrunning : w.scheduler.running = true)
    (request : ProbeRequest) (s : ProbeStep) :
    (∃ phase ms, s.fate.ending = phase.fate.ending ∧ w.followProbe request s =
        (w.probed s.deeds 0, .inl (.probe request (some (phase, w.scheduler.dueIn ms)))))
      ∨ w.followProbe request s = (w.probed s.deeds 0, .inr (.ofEnding s.fate.ending)) := by
  obtain ⟨deeds, next⟩ := s
  cases next with
  | wait phase ms =>
      refine .inl ⟨phase, ms, rfl, ?_⟩
      simp only [followProbe, hrunning, if_true]
      rfl
  | settled answer => exact .inr rfl
  | faulted f => exact .inr rfl

/-- Whatever else goes on, a probe comes to what its fate tells, if the patience lasts. -/
theorem await_probe (request : ProbeRequest) {ending : Except Fault ProbeAnswer} :
    ∀ (n : Nat) (fg : Foreground) (w : World), w.scheduler.running = true →
      (∃ phase due, fg = .probe request (some (phase, due)) ∧ phase.fate.ending = ending)
        ∨ (fg = .probe request none
          ∧ (w.plane.take w.scheduler.now request).1.fate.ending = ending) →
      (w.await n fg).2 = .ofEnding ending ∨ (w.await n fg).2 = .stalled := by
  intro n
  induction n with
  | zero => exact fun fg w _ _ => .inr rfl
  | succ n ih =>
      intro fg w hrunning hfg
      -- A look at the foreground leaves it asleep with the same end to come, or it is the end.
      have hrun : ∀ (s : ProbeStep) (w₁ : World), w₁.scheduler = w.scheduler →
          s.fate.ending = ending →
          (∃ w' phase due,
            w₁.followProbe request s = (w', .inl (.probe request (some (phase, due))))
              ∧ w'.scheduler.running = true ∧ phase.fate.ending = ending)
            ∨ ∃ w', w₁.followProbe request s = (w', .inr (.ofEnding ending)) := by
        intro s w₁ hscheduler hending
        have hrunning₁ : w₁.scheduler.running = true := by rw [hscheduler]; exact hrunning
        rcases followProbe_cases hrunning₁ request s with ⟨phase, ms, hrest, heq⟩ | heq
        · exact .inl ⟨_, _, _, heq, hrunning₁, hrest.symm.trans hending⟩
        · exact .inr ⟨_, hending ▸ heq⟩
      have hlook : (∃ w' phase due, w.attend fg = (w', .inl (.probe request (some (phase, due))))
            ∧ w'.scheduler.running = true ∧ phase.fate.ending = ending)
          ∨ ∃ w', w.attend fg = (w', .inr (.ofEnding ending)) := by
        rcases hfg with ⟨phase, due, rfl, hending⟩ | ⟨rfl, hending⟩
        · unfold attend
          dsimp only
          split
          · exact hrun _ w rfl (by rw [Probe.fate_resume]; exact hending)
          · exact .inl ⟨w, phase, due, rfl, hrunning, hending⟩
        · exact hrun _ _ rfl (by rw [Probe.fate_start]; exact hending)
      unfold await
      rcases hlook with ⟨w', phase, due, heq, hrunning', hending⟩ | ⟨w', heq⟩
      · rw [heq]
        dsimp only
        split
        · split
          · exact .inr rfl
          · exact ih _ _ hrunning' (.inl ⟨phase, due, rfl, hending⟩)
        · exact ih _ _ ((drain_holds _ w').running.trans hrunning')
            (.inl ⟨phase, due, rfl, hending⟩)
      · rw [heq]
        exact .inl rfl

theorem probing_probe (request : ProbeRequest) :
    Probing (fun s w => w.followProbe request s)
      (fun phase due => .probe request (some (phase, due))) where
  due := fun _ _ => rfl
  waits := by
    intro s w phase ms hrunning hnext
    simp only [followProbe, hnext, hrunning, if_true]
    rfl
  resumes := by
    intro phase due w hdue
    simp only [attend, hdue, if_true]

/-- A probe in a quiet world comes to what its course foretells. -/
theorem waitFor_probe {w : World} (hquiet : w.Quiet) (request : ProbeRequest) {c : ProbeCourse}
    {plane : ControlPlane} (htake : w.plane.take w.scheduler.now request = (c, plane)) :
    w.waitFor (.probe request none) =
      ({ w with plane }.probed c.fate.deeds c.fate.ms,
        match c.fate.ending with
        | .ok answer => .probed answer
        | .error f => .broke f) := by
  have hattend : w.attend (.probe request none) =
      { w with plane }.followProbe request (Probe.start c) := by
    rw [attend, htake]
  obtain ⟨s, fg, w', w₁, past, ms, rounds, hend, hrounds, hfate, hawait, hattend', hw₁⟩ :=
    (probing_probe request).proceeds 3 (Probe.start c) _ w { w with plane }
      (fun _ _ hnext => Probe.rank_start hnext) hattend
      ⟨hquiet.running, hquiet.queue, hquiet.sleepers⟩
  obtain ⟨fuel, hfuel⟩ : ∃ fuel, patience = fuel + 1 + rounds :=
    ⟨patience - 1 - rounds, by unfold patience; omega⟩
  rw [Probe.fate_start] at hfate
  rw [waitFor, hfuel, hawait, hfate]
  cases hnext : s.next with
  | wait phase ms => exact absurd hnext (hend phase ms)
  | settled answer =>
      have hdone : w'.attend fg = (w₁.probed s.deeds 0, .inr (.probed answer)) := by
        rw [hattend', followProbe, hnext]
        rfl
      rw [await_done hdone, hw₁, probed_probed]
      simp only [ProbeStep.fate, hnext]
      rfl
  | faulted f =>
      have hdone : w'.attend fg = (w₁.probed s.deeds 0, .inr (.faulted none f)) := by
        rw [hattend', followProbe, hnext]
        rfl
      rw [await_done hdone, hw₁, probed_probed]
      simp only [ProbeStep.fate, hnext]
      rfl

end World

namespace Lookup

/-- **Every session is released once.** At every point of every trail the sessions of a lookup were
opened, asked and closed in this order and one after the other, so at most one is held; over a wait
one is held only while its query is under way; an attempt whose opening failed does nothing with a
session; and when the lookup returns, every session that was opened has been closed. The control
plane counts just these deeds. A wait for a lookup is such a trail. A failed probe that stands alone
returns an error of the lookup, whatever else goes on, and in a quiet world it does return. -/
theorem trail_releases_sessions {l₀ l : Lookup} {legs : List Leg} {place : Place}
    (htrail : Trail l₀ legs l place) :
    (∀ past, past <+: deeds legs → ∃ use, SessionUse.idle.after past = some use
        ∧ past.count .opened = past.count .closed + use.held)
      ∧ SessionUse.idle.after (deeds legs) = some place.use
      ∧ (∃ done past, deeds legs = done.flatMap ProbeCourse.sessionDeeds ++ past
        ∧ (courses legs = done ∧ past = []
          ∨ ∃ c, courses legs = done ++ [c] ∧ past <+: c.sessionDeeds))
      ∧ (∀ result, place = .returned result →
        deeds legs = (courses legs).flatMap ProbeCourse.sessionDeeds
          ∧ (deeds legs).count .opened = (deeds legs).count .closed)
      ∧ (∀ g ∈ legs, g.after.plane.opened = g.world.plane.opened + g.step.deeds.count .opened
        ∧ g.after.plane.closed = g.world.plane.closed + g.step.deeds.count .closed)
      ∧ (∀ (w : World) (n : Nat), w.scheduler.running = true →
        ∃ (legs : List Leg) (s : Scene), Trail l₀ legs s.lookup s.place
          ∧ w.await n (.lookup l₀ none) = s.told)
      ∧ ∀ (w : World) (request : ProbeRequest) (e : ClientError),
        w.scheduler.running = true → (w.plane.take w.scheduler.now request).1.FailsBy e →
          (∃ reason, e = .discovery reason)
          ∧ (∀ n, (w.await n (.probe request none)).2 = .probed (.error e)
            ∨ (w.await n (.probe request none)).2 = .stalled)
          ∧ (w.Quiet → (w.waitFor (.probe request none)).2 = .probed (.error e)) := by
  have hbooks := htrail.books
  obtain ⟨done, past, hdeeds, huse, hcourses⟩ := hbooks.deeds
  have hafter : SessionUse.idle.after (deeds legs) = some place.use := by
    rw [hdeeds, after_deedsOn, huse]
  refine ⟨?_, hafter, ⟨done, past, ?_, hcourses⟩, ?_, ?_, ?_, ?_⟩
  · rintro past ⟨rest, hpast⟩
    rw [← hpast, SessionUse.after_append] at hafter
    obtain ⟨use, hsome, -⟩ := Option.bind_eq_some_iff.mp hafter
    have hcount := SessionUse.count_opened hsome
    rw [SessionUse.held, Nat.zero_add] at hcount
    exact ⟨use, hsome, hcount⟩
  · rw [← deedsOn_eq, hdeeds]
  · rintro result rfl
    have hcount := SessionUse.count_opened hafter
    rw [SessionUse.held, Nat.zero_add] at hcount
    exact ⟨by rw [← deedsOn_eq, ← hbooks.deeds_returned], hcount⟩
  · exact fun g _ => ⟨g.opened_after, g.closed_after⟩
  · intro w n hrunning
    obtain ⟨legs', s, hjourney, htold⟩ :=
      await_journey n (s := ⟨w, l₀, .called⟩) hrunning .called
    exact ⟨legs', s, hjourney.trail, htold⟩
  · intro w request e hrunning hfails
    refine ⟨hfails.discovery, fun n => ?_, fun hquiet => ?_⟩
    · exact World.await_probe request n _ w hrunning (.inr ⟨rfl, hfails.ending⟩)
    · have hprobe := World.waitFor_probe hquiet request
        (c := (w.plane.take w.scheduler.now request).1) rfl
      rw [hprobe, hfails.ending]

/-- A lookup without a token. -/
def plainLookup : Lookup := { request := World.plainProbe, backoff := {}, token := none }

/-- A leg in which the query faults at once. -/
def faultedQuery : Leg :=
  { world := { plane := { script := [{ query := .fault .wordless }] } }
    lookup := plainLookup
    phase := none
    wake := .started }

/-- A leg after it in which the query is answered. -/
def answeredQuery : Leg :=
  { world := { plane := { script := [{ query := .answer ⟨"wss://g", 2⟩ }] } }
    lookup := { plainLookup with retry := ⟨1⟩ }
    phase := some (.backingOff 1)
    wake := .timer }

theorem trail_releases_sessions_afterFault :
    Trail plainLookup [faultedQuery, answeredQuery] plainLookup
        (.returned (.ok ⟨⟨"wss://g", 2⟩, 1⟩))
      ∧ (deeds [faultedQuery, answeredQuery]).count .opened = 2
      ∧ (deeds [faultedQuery, answeredQuery]).count .closed = 2 := by
  have htrail : Trail plainLookup [faultedQuery, answeredQuery] plainLookup
      (.returned (.ok ⟨⟨"wss://g", 2⟩, 1⟩)) :=
    .leg _ .timer (.leg _ .started .called .called) .asleep
  have hopened : (deeds [faultedQuery, answeredQuery]).count .opened = 2 := rfl
  have hclosed := ((trail_releases_sessions htrail).2.2.2.1 _ rfl).2
  exact ⟨htrail, hopened, hclosed ▸ hopened⟩

end Lookup

end GatewayClient
