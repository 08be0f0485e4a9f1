import GatewayClient.Proofs.Lookup.Background

/-!
# Cancelling a lookup

Once its token is cancelled, what is to come of a lookup is fixed. Between two attempts it returns
at once. While its probe is under way it ends with the probe: with the recommendation if the probe
finds one, cancelled otherwise. `Scene.Comes` says this of a scene as a prophecy of the place, the
time and the deeds still to come; nothing that the world does falsifies it (`Comes.passes`), each
run fulfils a part of it (`Comes.runs`), and there are only so many runs (`Place.rank`).
-/

namespace GatewayClient

namespace Lookup

/-- A leg that returns an error heeds a token. -/
theorem Leg.cancelled_of_returned {g : Leg} {e : ClientError}
    (harrival : g.arrival = .returned (.error e)) :
    g.cancelled = true ∨ g.wake = .token ∧ ∀ p, g.phase ≠ some (.probing p) := by
  rcases g.upshot_or_stop with ⟨s, hupshot⟩ | ⟨notes, hphase, hwhy, -⟩
  · unfold Leg.arrival at harrival
    generalize g.step.lookup = l at hupshot
    generalize g.step.next = next at hupshot harrival
    cases hupshot with
    | givesUp _ hcancelled => exact .inl hcancelled
    | waits | finds | backsOff | faults => simp [Place.ofNext] at harrival
  · rcases hwhy with hcancelled | hwake
    · exact .inl hcancelled
    · exact .inr ⟨hwake, hphase⟩

/-- A lookup is between two attempts. -/
inductive Place.Idle : Place → Prop
  | called : Idle .called
  | backingOff {attempt : UInt32} {due : Nat} : Idle (.asleep (.backingOff attempt) due)

/-- Where the end of its probe leaves a lookup whose token is cancelled. -/
def Place.ofEnding (retries : UInt32) : Except Fault ProbeAnswer → Place
  | .ok (.ok r) => returned (.ok ⟨r, retries⟩)
  | .ok (.error _) => returned (.error .cancelled)
  | .error f => faulted f

/-- How many runs a lookup has left if its token is cancelled. -/
def Place.rank : Place → Nat
  | .called | .asleep (.backingOff _) _ => 1
  | .asleep (.probing phase) _ => phase.rank + 1
  | .returned _ | .faulted _ => 0

theorem Place.over_ofEnding (retries : UInt32) (ending : Except Fault ProbeAnswer) :
    (ofEnding retries ending).Over := by
  rcases ending with f | e | r
  · exact .faulted
  · exact .returned
  · exact .returned

theorem Place.Over.not_onward {place : Place} (hover : place.Over) (phase : Option LookupPhase) :
    ¬ place.Onward phase := by
  intro honward
  cases hover <;> cases honward

/-! ## What is to come -/

namespace Scene

/-- What is to come of a lookup whose token is cancelled: the place and the time of its end, and
its deeds until then. -/
inductive Comes (s : Scene) : Place → Nat → List ProbeDeed → Prop
  | stops : s.place.Idle → Comes s (.returned (.error .cancelled)) s.time []
  | finishes {phase : ProbePhase} {due : Nat} : s.place = .asleep (.probing phase) due →
      s.time ≤ due →
      Comes s (.ofEnding s.lookup.retry.attempt phase.fate.ending) (due + phase.fate.ms)
        phase.fate.deeds

variable {s : Scene} {place : Place} {time : Nat} {ds : List ProbeDeed} {w : World}
  {phase : Option LookupPhase} {wake : Wake}

theorem Comes.place_over (hcomes : s.Comes place time ds) : place.Over := by
  cases hcomes with
  | stops => exact .returned
  | finishes => exact Place.over_ofEnding _ _

theorem Comes.not_over (hcomes : s.Comes place time ds) : ¬ s.place.Over := by
  intro hover
  generalize hat : s.place = at₀ at hover
  cases hcomes with
  | stops hidle => rw [hat] at hidle; cases hover <;> cases hidle
  | finishes hplace => rw [hat] at hplace; cases hover <;> cases hplace

theorem Comes.rank_pos (hcomes : s.Comes place time ds) : 0 < s.place.rank := by
  cases hcomes with
  | stops hidle =>
      generalize s.place = place at hidle ⊢
      cases hidle <;> exact Nat.zero_lt_one
  | finishes hplace =>
      rw [hplace]
      exact Nat.succ_pos _

theorem Passes.time_eq_of_idle (hpasses : s.Passes w) (hcancelled : s.cancelled = true)
    (hidle : s.place.Idle) : w.scheduler.now = s.time := by
  cases hpasses with
  | happens hnow => exact hnow
  | elapses _ hallows =>
      unfold Allows at hallows
      generalize s.place = place at hidle hallows
      cases hidle with
      | called => exact hallows
      | backingOff => exact hallows.2 hcancelled

/-- Nothing that the world does changes what is to come. -/
theorem Comes.passes (hcomes : s.Comes place time ds) (hcancelled : s.cancelled = true)
    (hpasses : s.Passes w) : Comes { s with world := w } place time ds := by
  cases hcomes with
  | stops hidle =>
      rw [← hpasses.time_eq_of_idle hcancelled hidle]
      exact .stops (s := { s with world := w }) hidle
  | finishes hplace hdue =>
      exact .finishes (s := { s with world := w }) hplace (hpasses.time_le_due hplace hdue)

/-- A run of the probe of a lookup whose token is cancelled. -/
theorem comes_of_resume {p : ProbePhase} {due : Nat}
    (hplace : s.place = .asleep (.probing p) due) (hdue : s.time = due)
    (hstep : (s.leg phase wake).step = (s.lookup.follow (Probe.resume p)).heed true) :
    (s.ran phase wake).place = .ofEnding s.lookup.retry.attempt p.fate.ending
        ∧ s.time = due + p.fate.ms ∧ p.fate.deeds = (s.leg phase wake).step.deeds
      ∨ ∃ ds', (s.ran phase wake).Comes (.ofEnding s.lookup.retry.attempt p.fate.ending)
            (due + p.fate.ms) ds'
          ∧ p.fate.deeds = (s.leg phase wake).step.deeds ++ ds'
          ∧ (s.ran phase wake).place.rank < s.place.rank := by
  have hplace' : (s.ran phase wake).place =
      .ofNext s.world.scheduler ((s.lookup.follow (Probe.resume p)).heed true).next := by
    rw [← hstep]; rfl
  have hlookup : (s.ran phase wake).lookup =
      ((s.lookup.follow (Probe.resume p)).heed true).lookup := by rw [← hstep]; rfl
  have htime : (s.ran phase wake).time = due := by
    rw [Scene.time, ran_scheduler]; exact hdue
  have hupshot := upshot_follow s.lookup (Probe.resume p) true
  rw [hstep, deeds_follow, ← Probe.fate_resume p]
  generalize ((s.lookup.follow (Probe.resume p)).heed true).lookup = l at hupshot hlookup
  generalize ((s.lookup.follow (Probe.resume p)).heed true).next = next at hupshot hplace'
  cases hupshot with
  | @waits p' ms hnext =>
      have hwait : (s.ran phase wake).place =
          .asleep (.probing p') (due + Scheduler.span (some ms)) := by
        rw [hplace', Place.ofNext, Scheduler.dueIn_eq, ← hdue]; rfl
      have hcomes := Comes.finishes hwait (by rw [htime]; exact Nat.le_add_right _ _)
      rw [hlookup, Nat.add_assoc] at hcomes
      simp only [ProbeStep.fate, hnext]
      refine .inr ⟨_, hcomes, rfl, ?_⟩
      rw [hwait, hplace]
      exact Nat.succ_lt_succ (Probe.rank_resume hnext)
  | finds hnext => simp only [ProbeStep.fate, hnext]; exact .inl ⟨hplace', hdue, trivial⟩
  | givesUp hnext => simp only [ProbeStep.fate, hnext]; exact .inl ⟨hplace', hdue, trivial⟩
  | backsOff _ hgoes => cases hgoes
  | faults hnext => simp only [ProbeStep.fate, hnext]; exact .inl ⟨hplace', hdue, trivial⟩

/-- A run of the lookup is the last one and fulfils what was to come, or it fulfils a part. -/
theorem Comes.runs (hcomes : s.Comes place time ds) (hcancelled : s.cancelled = true)
    (hready : s.Ready phase wake) :
    (s.leg phase wake).course? = none
      ∧ ((s.ran phase wake).place = place ∧ s.time = time ∧ ds = (s.leg phase wake).step.deeds
        ∨ ∃ ds', (s.ran phase wake).Comes place time ds'
          ∧ ds = (s.leg phase wake).step.deeds ++ ds'
          ∧ (s.ran phase wake).place.rank < s.place.rank) := by
  have honward := hready.onward
  rcases (s.leg phase wake).step_cases with
    ⟨c, -, hgoes, -, -⟩ | ⟨p, hphase, hcourse, hstep⟩ | ⟨notes, hphase, -, hcourse, hstep⟩
  · exact absurd (hcancelled.symm.trans hgoes) Bool.true_eq_false.mp
  · refine ⟨hcourse, ?_⟩
    have honward' : s.place.Onward (some (.probing p)) := by
      rw [← hphase]
      exact honward
    obtain ⟨due, hplace⟩ := honward'.asleep_of
    cases hcomes with
    | stops hidle => rw [hplace] at hidle; cases hidle
    | finishes hplace' hle =>
        rw [hplace] at hplace'
        cases hplace'
        -- A probe listens for no token, so the clock has come to the end of its wait.
        have hready' : s.Ready (some (.probing p)) wake := hphase ▸ hready
        have hdue := hready'.time_eq_due hplace hle Bool.false_ne_true
        exact comes_of_resume hplace hdue
          (hstep.trans (congrArg (LookupStep.heed _) hcancelled))
  · refine ⟨hcourse, .inl ?_⟩
    cases hcomes with
    | stops => exact ⟨by rw [ran, Leg.arrival, hstep]; rfl, rfl, by rw [hstep]; rfl⟩
    | @finishes p due hplace =>
        rw [hplace] at honward
        cases honward
        exact absurd rfl (hphase p)

end Scene

/-! ## Journeys with the token cancelled -/

namespace Journey

variable {s s' : Scene} {legs : List Leg} {place : Place} {time : Nat} {ds : List ProbeDeed}

theorem token_eq (hjourney : Journey s legs s') : s'.lookup.token = s.lookup.token := by
  induction hjourney with
  | here => rfl
  | passes _ _ ih => exact ih
  | runs _ _ ih => exact (Leg.step_token _).trans ih

theorem cancelled (hjourney : Journey s legs s') (hcancelled : s.cancelled = true) :
    s'.cancelled = true := by
  rw [Scene.cancelled, hjourney.token_eq]
  exact hjourney.isCancelled hcancelled

/-- What is to come comes, or is still to come after the legs behind. -/
theorem comes (hjourney : Journey s legs s') (hcancelled : s.cancelled = true)
    (hcomes : s.Comes place time ds) :
    courses legs = []
      ∧ ((∃ ds', s'.Comes place time ds' ∧ ds = deeds legs ++ ds'
          ∧ legs.length + s'.place.rank ≤ s.place.rank)
        ∨ s'.place = place ∧ ds = deeds legs ∧ legs.length ≤ s.place.rank
          ∧ ∃ g, legs.getLast? = some g ∧ g.time = time) := by
  induction hjourney with
  | here => exact ⟨rfl, .inl ⟨ds, hcomes, rfl, Nat.le_of_eq (Nat.zero_add _)⟩⟩
  | passes hjourney hpasses ih =>
      obtain ⟨hcourses, ⟨ds', hcomes', hrest⟩ | hover⟩ := ih
      · exact ⟨hcourses, .inl ⟨ds', hcomes'.passes (hjourney.cancelled hcancelled) hpasses, hrest⟩⟩
      · exact ⟨hcourses, .inr hover⟩
  | @runs legs s' phase wake hjourney hready ih =>
      obtain ⟨hcourses, ⟨ds', hcomes', hds, hrank⟩ | ⟨hplace, -⟩⟩ := ih
      · obtain ⟨hcourse, hend⟩ := hcomes'.runs (hjourney.cancelled hcancelled) hready
        refine ⟨by rw [courses_append, hcourses, courses_none hcourse]; rfl, ?_⟩
        rw [deeds_append, deeds_singleton, List.length_append, List.length_singleton]
        rcases hend with ⟨hplace, htime, hds'⟩ | ⟨ds'', hcomes'', hds', hless⟩
        · refine .inr ⟨hplace, by rw [hds, hds'], ?_, _, List.getLast?_concat .., htime⟩
          have hpos := hcomes'.rank_pos
          omega
        · exact .inl ⟨ds'', hcomes'', by rw [hds, hds', List.append_assoc], by omega⟩
      · exact absurd hready.onward ((hplace ▸ hcomes.place_over).not_onward phase)

/-- What is to come can come. -/
theorem exists_end (hcancelled : s.cancelled = true) (hcomes : s.Comes place time ds) :
    ∃ legs s', Journey s legs s' ∧ s'.place = place := by
  induction hn : s.place.rank using Nat.strongRecOn generalizing s ds with
  | ind n ih =>
  -- The scene from which the lookup goes on: the same, or the end of the wait of its probe.
  obtain ⟨w, phase, wake, hpasses, hready⟩ :
      ∃ w phase wake, s.Passes w ∧ Scene.Ready { s with world := w } phase wake := by
    have hstays : s.Passes s.world := .happens rfl fun _ h => h
    cases hcomes with
    | stops hidle =>
        obtain ⟨w, l, at₀⟩ := s
        cases hidle with
        | called => exact ⟨w, none, .started, hstays, .called rfl⟩
        | backingOff => exact ⟨w, some _, .token, hstays, .token rfl hcancelled⟩
    | @finishes p due hplace hdue =>
        refine ⟨{ s.world with scheduler := { s.world.scheduler with now := due } }, _, .timer,
          .elapses hdue ?_ rfl, .timer hplace (Nat.le_refl due)⟩
        rw [Scene.Allows, hplace]
        exact ⟨Nat.le_max_right _ _, fun hheard => absurd hheard Bool.false_ne_true⟩
  have hcancelled' : Scene.cancelled { s with world := w } = true := hpasses.isCancelled hcancelled
  have hruns := (Journey.here.passes hpasses).runs hready
  rcases ((hcomes.passes hcancelled hpasses).runs hcancelled' hready).2 with
    ⟨hplace, -, -⟩ | ⟨ds', hcomes', -, hless⟩
  · exact ⟨_, _, hruns, hplace⟩
  · obtain ⟨legs, s', hjourney, hplace⟩ :=
      ih _ (hn ▸ hless) (hruns.cancelled hcancelled) hcomes' rfl
    exact ⟨_, s', hruns.append hjourney, hplace⟩

/-- A lookup returns no error unless its token is cancelled. -/
theorem cancelled_of_returned {w₀ : World} {l₀ : Lookup} {e : ClientError}
    (hjourney : Journey ⟨w₀, l₀, .called⟩ legs s) (hplace : s.place = .returned (.error e)) :
    s.cancelled = true := by
  induction hjourney with
  | here => cases hplace
  | passes _ hpasses ih => exact hpasses.isCancelled (ih hplace)
  | @runs legs s phase wake hjourney hready _ =>
      have hleg : s.cancelled = true := by
        rcases Leg.cancelled_of_returned hplace with hcancelled | ⟨rfl, hphase⟩
        · exact hcancelled
        · cases hready with
          | @token phase due hplace' hheard =>
            rcases phase with p | n
            · exact absurd rfl (hphase p)
            · exact hheard
      exact (Journey.here.runs hready).cancelled hleg

theorem of_over (hjourney : Journey s legs s') (hover : s.place.Over) :
    legs = [] ∧ s'.place = s.place := by
  induction hjourney with
  | here => exact ⟨rfl, rfl⟩
  | passes _ _ ih => exact ih
  | runs _ hready ih => exact absurd hready.onward ((ih.2 ▸ hover).not_onward _)

end Journey

theorem counting_fresh {l : Lookup} {n : Nat} (hfresh : l.retry = {}) (hlt : n < UInt32.size) :
    (l.counting n).retry.attempt.toNat = n := by
  rw [counting_eq hfresh]
  exact UInt32.toNat_ofNat_of_lt' hlt

/-- **A lookup heeds its token.** On every journey from a call, and at every point of it:

* An error that the lookup returned is `cancelled`, the token is cancelled, every attempt has
  failed, and a counter that was fresh holds their number.
* If the token is cancelled, no attempt begins from then on, and a lookup that is not over has a
  fixed end to come: from a call or a backoff it returns `cancelled`, now; from a probe it returns
  what the probe finds, or `cancelled` if the probe fails, with the session closed and as soon as
  the probe has come to its end. This end can come, and until it has come the lookup is on the way
  there.

A wait for a lookup is such a journey, and so is what the task of a lookup does in a scenario. -/
theorem journey_heeds_token {w₀ : World} {l₀ : Lookup} {legs : List Leg} {s : Scene}
    (hjourney : Journey ⟨w₀, l₀, .called⟩ legs s) :
    (∀ e, s.place = .returned (.error e) →
        e = .cancelled ∧ s.cancelled = true ∧ AllFail (courses legs)
        ∧ (l₀.retry = {} → (courses legs).length < UInt32.size →
          s.lookup.retry.attempt.toNat = (courses legs).length))
      ∧ (s.cancelled = true →
        (∀ legs' s', Journey s legs' s' →
          ∀ g ∈ legs', g.course? = none ∧ g.after.plane.probes = g.world.plane.probes)
        ∧ (s.place.Over ∨ ∃ place time ds, s.Comes place time ds ∧ place.Over
          ∧ (∃ legs' s', Journey s legs' s' ∧ s'.place = place)
          ∧ ∀ legs' s', Journey s legs' s' →
            legs'.length ≤ s.place.rank
            ∧ ((∃ ds', s'.Comes place time ds' ∧ ds = deeds legs' ++ ds')
              ∨ s'.place = place ∧ ds = deeds legs'
                ∧ ∃ g, legs'.getLast? = some g ∧ g.time = time)))
      ∧ (w₀.scheduler.running = true → ∀ n, ∃ legs' s', Journey ⟨w₀, l₀, .called⟩ legs' s'
        ∧ w₀.await n (.lookup l₀ none) = s'.told)
      ∧ ∀ k id, Attached k id ⟨w₀, l₀, .called⟩ →
        ∀ steps, Follows k id ⟨w₀, l₀, .called⟩ (w₀.play steps).1 := by
  have hbooks := hjourney.trail.books
  refine ⟨fun e hplace => ?_, fun hcancelled => ?_,
    fun hrunning n => await_journey n (s := ⟨w₀, l₀, .called⟩) hrunning .called,
    fun k id hattached steps => hattached.play steps⟩
  · have hcancelled := hjourney.cancelled_of_returned hplace
    rw [hplace] at hbooks
    generalize s.lookup = l at hbooks ⊢
    generalize courses legs = cs at hbooks ⊢
    generalize deeds legs = ds at hbooks
    cases hbooks with
    | cancelled hfail => exact ⟨rfl, hcancelled, hfail, counting_fresh⟩
  · have hend : s.place.Over ∨ ∃ place time ds, s.Comes place time ds := by
      cases hplace : s.place with
      | called => exact .inr ⟨_, _, _, .stops (hplace ▸ .called)⟩
      | returned => exact .inl .returned
      | faulted => exact .inl .faulted
      | asleep phase due =>
          cases phase with
          | probing p => exact .inr ⟨_, _, _, .finishes hplace (hjourney.punctual hplace)⟩
          | backingOff n => exact .inr ⟨_, _, _, .stops (hplace ▸ .backingOff)⟩
    have hnone : ∀ legs' s', Journey s legs' s' → courses legs' = [] := by
      intro legs' s' hjourney'
      rcases hend with hover | ⟨place, time, ds, hcomes⟩
      · rw [(hjourney'.of_over hover).1]; rfl
      · exact (hjourney'.comes hcancelled hcomes).1
    refine ⟨fun legs' s' hjourney' g hg => ?_, ?_⟩
    · have hcourse := List.filterMap_eq_nil_iff.mp (hnone legs' s' hjourney') g hg
      exact ⟨hcourse, by rw [g.probes_after, hcourse]; exact List.append_nil _⟩
    · rcases hend with hover | ⟨place, time, ds, hcomes⟩
      · exact .inl hover
      · refine .inr ⟨place, time, ds, hcomes, hcomes.place_over,
          Journey.exists_end hcancelled hcomes, fun legs' s' hjourney' => ?_⟩
        rcases (hjourney'.comes hcancelled hcomes).2 with
          ⟨ds', hcomes', hds, hrank⟩ | ⟨hplace, hds, hrank, hlast⟩
        · exact ⟨by omega, .inl ⟨ds', hcomes', hds⟩⟩
        · exact ⟨hrank, .inr ⟨hplace, hds, hlast⟩⟩

/-- A lookup with a token that is called when the next query takes five milliseconds and fails. -/
def calledScene : Scene where
  world := { plane := { script := [{ queryDelay := some 5, query := .refusal .cancelled }] } }
  lookup := { request := World.plainProbe, backoff := {}, token := some "t" }
  place := .called

/-- The token is cancelled during this query. -/
def interruptedScene : Scene :=
  { calledScene.ran none .started with
    world :=
      { (calledScene.ran none .started).world with
        scheduler := (calledScene.ran none .started).world.scheduler.cancel "t" } }

theorem journey_heeds_token_midProbe :
    Journey calledScene [calledScene.leg none .started] interruptedScene
      ∧ interruptedScene.cancelled = true
      ∧ ∀ legs s, Journey interruptedScene legs s → s.place.Over →
        s.place = .returned (.error .cancelled) ∧ deeds legs = [.closed]
          ∧ ∃ g, legs.getLast? = some g ∧ g.time = 5 := by
  have hjourney : Journey calledScene [calledScene.leg none .started] interruptedScene :=
    (Journey.here.runs (.called rfl)).passes
      (.happens rfl (Scheduler.cancel_holds "t" _).cancelled)
  have hcancelled : interruptedScene.cancelled = true := rfl
  refine ⟨hjourney, hcancelled, fun legs s hjourney' hover => ?_⟩
  rcases ((journey_heeds_token hjourney).2.1 hcancelled).2 with
    hearly | ⟨place, time, ds, hcomes, -, -, hend⟩
  · cases hearly
  · rcases (hend legs s hjourney').2 with ⟨ds', hcomes', -⟩ | ⟨hplace, hds, hlast⟩
    · exact absurd hover hcomes'.not_over
    · cases hcomes with
      | stops hidle => cases hidle
      | finishes hphase => cases hphase; exact ⟨hplace, hds.symm, hlast⟩

end Lookup

end GatewayClient
