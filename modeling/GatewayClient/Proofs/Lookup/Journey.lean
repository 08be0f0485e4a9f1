import GatewayClient.Proofs.Lookup.Trail
import GatewayClient.Proofs.Scenario.Clock

/-!
# The journey of a lookup

A trail says what a lookup does and not when. A journey is a trail under a clock: between two runs
of the lookup the world goes on, either something happens while the clock stands still, or time
passes and nothing happens. Tokens stay cancelled, and the clock does not pass a time at which the
lookup is to go on. Beyond that nothing is asked of the world, and a lookup that can go on for two
reasons takes either.

A wait for a lookup in the foreground is a journey (`await_journey`). That a lookup in the
background makes one takes a look at the scheduler and is shown apart.
-/

namespace GatewayClient

namespace Lookup

inductive Place.Over : Place → Prop
  | returned {result : Except ClientError LookupReport} : Over (.returned result)
  | faulted {f : Fault} : Over (.faulted f)

/-! ## Scenes -/

/-- A lookup between two of its runs, and the world around it. -/
structure Scene where
  world : World
  lookup : Lookup
  place : Place

namespace Scene

def time (s : Scene) : Nat := s.world.scheduler.now

/-- The token of the lookup is cancelled. -/
def cancelled (s : Scene) : Bool := s.world.scheduler.isCancelled s.lookup.token

/-- The lookup listens in a phase for a token that is cancelled. -/
def Hears (s : Scene) (phase : LookupPhase) : Prop :=
  s.world.scheduler.isCancelled (World.tokenOf s.lookup phase) = true

/-- Why a lookup can go on: it is called, its wait is over, or it hears that its token is cancelled.
The last two may come together. -/
inductive Ready (s : Scene) : Option LookupPhase → Wake → Prop
  | called : s.place = .called → Ready s none .started
  | timer {phase : LookupPhase} {due : Nat} : s.place = .asleep phase due → due ≤ s.time →
      Ready s (some phase) .timer
  | token {phase : LookupPhase} {due : Nat} : s.place = .asleep phase due → s.Hears phase →
      Ready s (some phase) .token

/-- The clock may move to a time before the lookup goes on. -/
def Allows (s : Scene) (time : Nat) : Prop :=
  match s.place with
  | .called => time = s.time
  | .asleep phase due => time ≤ Nat.max s.time due ∧ (s.Hears phase → time = s.time)
  | _ => True

/-- The world goes on while the lookup does not run. -/
inductive Passes (s : Scene) (w : World) : Prop
  | happens : w.scheduler.now = s.time →
      (∀ token, s.world.scheduler.isCancelled token = true → w.scheduler.isCancelled token = true) →
      Passes s w
  | elapses : s.time ≤ w.scheduler.now → s.Allows w.scheduler.now →
      w.scheduler.cancelled = s.world.scheduler.cancelled → Passes s w

def leg (s : Scene) (phase : Option LookupPhase) (wake : Wake) : Leg :=
  ⟨s.world, s.lookup, phase, wake⟩

/-- The scene after a run of the lookup. -/
def ran (s : Scene) (phase : Option LookupPhase) (wake : Wake) : Scene :=
  ⟨(s.leg phase wake).after, (s.leg phase wake).step.lookup, (s.leg phase wake).arrival⟩

variable {s : Scene} {phase : Option LookupPhase} {wake : Wake} {w : World}

theorem not_hears (hgoes : s.cancelled = false) (phase : LookupPhase) : ¬ s.Hears phase := by
  intro hheard
  cases phase with
  | probing p => exact Bool.false_ne_true hheard
  | backingOff n => exact Bool.false_ne_true (hgoes.symm.trans hheard)

theorem Ready.onward (hready : s.Ready phase wake) : s.place.Onward phase := by
  cases hready with
  | called hplace => rw [hplace]; exact .called
  | timer hplace => rw [hplace]; exact .asleep
  | token hplace => rw [hplace]; exact .asleep

theorem ran_scheduler (s : Scene) (phase : Option LookupPhase) (wake : Wake) :
    (s.ran phase wake).world.scheduler = s.world.scheduler :=
  (World.stepLookup_aside s.lookup phase wake s.world).scheduler

theorem Passes.isCancelled (hpasses : s.Passes w) {token : Option String}
    (htoken : s.world.scheduler.isCancelled token = true) :
    w.scheduler.isCancelled token = true := by
  cases hpasses with
  | happens _ hstays => exact hstays token htoken
  | elapses _ _ hsame => exact (Scheduler.isCancelled_congr hsame token).trans htoken

/-- The clock does not pass the end of the wait of a lookup. -/
theorem Passes.time_le_due (hpasses : s.Passes w) {phase : LookupPhase} {due : Nat}
    (hplace : s.place = .asleep phase due) (hdue : s.time ≤ due) : w.scheduler.now ≤ due := by
  cases hpasses with
  | happens hnow => rw [hnow]; exact hdue
  | elapses _ hallows =>
      rw [Allows, hplace] at hallows
      exact Nat.le_trans hallows.1 (Nat.max_le.mpr ⟨hdue, Nat.le_refl due⟩)

theorem Passes.time_eq_of_called (hpasses : s.Passes w) (hplace : s.place = .called) :
    w.scheduler.now = s.time := by
  cases hpasses with
  | happens hnow => exact hnow
  | elapses _ hallows => rw [Allows, hplace] at hallows; exact hallows

/-- A lookup that hears nothing goes on when its wait is over. -/
theorem Ready.time_eq_due {phase : LookupPhase} {due : Nat} (hready : s.Ready (some phase) wake)
    (hplace : s.place = .asleep phase due) (hdue : s.time ≤ due) (hsilent : ¬ s.Hears phase) :
    s.time = due := by
  cases hready with
  | timer hplace' hover =>
      rw [hplace] at hplace'
      cases hplace'
      exact Nat.le_antisymm hdue hover
  | token _ hheard => exact absurd hheard hsilent

end Scene

/-! ## Journeys -/

/-- The legs of a lookup from one scene to another. -/
inductive Journey (s : Scene) : List Leg → Scene → Prop
  | here : Journey s [] s
  | passes {legs : List Leg} {s' : Scene} {w : World} : Journey s legs s' → s'.Passes w →
      Journey s legs { s' with world := w }
  | runs {legs : List Leg} {s' : Scene} {phase : Option LookupPhase} {wake : Wake} :
      Journey s legs s' → s'.Ready phase wake →
      Journey s (legs ++ [s'.leg phase wake]) (s'.ran phase wake)

namespace Journey

variable {s s' s'' : Scene} {legs legs' : List Leg}

theorem append (hjourney : Journey s legs s') (hjourney' : Journey s' legs' s'') :
    Journey s (legs ++ legs') s'' := by
  induction hjourney' with
  | here => rw [List.append_nil]; exact hjourney
  | passes _ hpasses ih => exact ih.passes hpasses
  | runs _ hready ih => rw [← List.append_assoc]; exact ih.runs hready

/-- A journey from a call is a trail. -/
theorem trail {w₀ : World} {l₀ : Lookup} (hjourney : Journey ⟨w₀, l₀, .called⟩ legs s) :
    Trail l₀ legs s.lookup s.place := by
  induction hjourney with
  | here => exact .called
  | passes _ _ ih => exact ih
  | @runs legs s phase wake _ hready ih => exact .leg s.world wake ih hready.onward

theorem isCancelled (hjourney : Journey s legs s') {token : Option String}
    (htoken : s.world.scheduler.isCancelled token = true) :
    s'.world.scheduler.isCancelled token = true := by
  induction hjourney with
  | here => exact htoken
  | passes _ hpasses ih => exact hpasses.isCancelled ih
  | runs _ _ ih => rw [Scene.ran_scheduler]; exact ih

end Journey

theorem Upshot.token {l l' : Lookup} {s : ProbeStep} {cancelled : Bool} {next : LookupNext}
    (hupshot : Upshot l s cancelled l' next) : l'.token = l.token := by
  cases hupshot <;> rfl

theorem Leg.step_token (g : Leg) : g.step.lookup.token = g.lookup.token := by
  rcases g.upshot_or_stop with ⟨s, hupshot⟩ | ⟨notes, -, -, hstep⟩
  · exact hupshot.token
  · rw [hstep]; rfl

/-- Where a run leaves a lookup asleep, it does so from now on and hears no token. -/
theorem Leg.arrival_asleep {g : Leg} {phase : LookupPhase} {due : Nat}
    (harrival : g.arrival = .asleep phase due) :
    g.time ≤ due ∧ g.world.scheduler.isCancelled (World.tokenOf g.step.lookup phase) = false := by
  rcases g.upshot_or_stop with ⟨s, hupshot⟩ | ⟨notes, -, -, hstep⟩
  · have htoken := g.step_token
    unfold Leg.arrival at harrival
    generalize g.step.lookup = l at hupshot htoken ⊢
    generalize g.step.next = next at hupshot harrival
    cases hupshot with
    | waits =>
        rw [Place.ofNext, Place.asleep.injEq] at harrival
        obtain ⟨rfl, rfl⟩ := harrival
        exact ⟨Nat.le_add_right _ _, rfl⟩
    | backsOff _ hcancelled =>
        rw [Place.ofNext, Place.asleep.injEq] at harrival
        obtain ⟨rfl, rfl⟩ := harrival
        rw [World.tokenOf, htoken]
        exact ⟨Nat.le_add_right _ _, hcancelled⟩
    | finds | givesUp | faults => cases harrival
  · rw [Leg.arrival, hstep] at harrival
    cases harrival

/-- Along a journey from a call the wait of a lookup is never over for long. -/
theorem Journey.punctual {w₀ : World} {l₀ : Lookup} (hjourney : Journey ⟨w₀, l₀, .called⟩ legs s)
    {phase : LookupPhase} {due : Nat} (hplace : s.place = .asleep phase due) : s.time ≤ due := by
  induction hjourney with
  | here => cases hplace
  | passes _ hpasses ih => exact hpasses.time_le_due hplace (ih hplace)
  | runs => rw [Scene.time, Scene.ran_scheduler]; exact (Leg.arrival_asleep hplace).1

/-! ## A wait is a journey -/

/-- What the foreground of a lookup is at a place where it is not over. -/
inductive Place.Foreground : Place → Option (LookupPhase × Nat) → Prop
  | called : Foreground .called none
  | asleep {phase : LookupPhase} {due : Nat} : Foreground (.asleep phase due) (some (phase, due))

namespace Scene

/-- What is told of a lookup to which nothing more happens. -/
def told (s : Scene) : World × Attained :=
  match s.place with
  | .returned result => (s.world, .found s.lookup.retry result)
  | .faulted f => (s.world, .faulted (some s.lookup.retry) f)
  | _ => (s.world, .stalled)

/-- What a look at the foreground leaves: a lookup that is asleep and cannot go on by its token, or
one that is over. -/
inductive Attended (s : Scene) : World × (Foreground ⊕ Attained) → Prop
  | asleep {phase : LookupPhase} {due : Nat} : s.place = .asleep phase due → ¬ s.Hears phase →
      Attended s (s.world, .inl (.lookup s.lookup (some (phase, due))))
  | ended {a : Attained} : s.told = (s.world, a) → Attended s (s.world, .inr a)

theorem followLookup_attended {s : Scene} (hrunning : s.world.scheduler.running = true)
    (phase : Option LookupPhase) (wake : Wake) :
    (s.ran phase wake).Attended (s.world.followLookup s.lookup phase wake) := by
  have hscheduler := (World.stepLookup_aside s.lookup phase wake s.world).scheduler
  have hsilent : ∀ phase' due, (s.leg phase wake).arrival = .asleep phase' due → _ :=
    fun _ _ hplace => (Leg.arrival_asleep hplace).2
  unfold ran World.followLookup
  unfold Leg.arrival Leg.step Leg.after leg at *
  rcases hstep : s.world.stepLookup s.lookup phase wake with ⟨w₁, step⟩
  rw [hstep] at hscheduler hsilent
  obtain ⟨l₁, deeds, notes, next⟩ := step
  dsimp only at hscheduler hsilent ⊢
  cases next with
  | wait phase' ms =>
      simp only [hscheduler, hrunning, if_true]
      refine .asleep (s := ⟨w₁, l₁, _⟩) rfl fun hheard => ?_
      rw [Hears, hscheduler] at hheard
      exact Bool.false_ne_true ((hsilent _ _ rfl).symm.trans hheard)
  | returned result => exact .ended (s := ⟨w₁, l₁, _⟩) rfl
  | faulted f => exact .ended (s := ⟨w₁, l₁, _⟩) rfl

/-- A look at the foreground is a run of the lookup if it can go on, and nothing otherwise. -/
theorem attend_attended {s : Scene} {asleep : Option (LookupPhase × Nat)}
    (hrunning : s.world.scheduler.running = true) (hplace : s.place.Foreground asleep) :
    ∃ legs s', Journey s legs s' ∧ s'.world.scheduler = s.world.scheduler
      ∧ s'.Attended (s.world.attend (.lookup s.lookup asleep)) := by
  have hrun : ∀ phase wake, s.Ready phase wake →
      ∃ legs s', Journey s legs s' ∧ s'.world.scheduler = s.world.scheduler
        ∧ s'.Attended (s.world.followLookup s.lookup phase wake) :=
    fun phase wake hready => ⟨_, s.ran phase wake, Journey.here.runs hready,
      s.ran_scheduler phase wake, followLookup_attended hrunning phase wake⟩
  obtain ⟨w, l, place⟩ := s
  cases hplace with
  | called => exact hrun none .started (.called rfl)
  | @asleep phase due =>
      unfold World.attend
      dsimp only
      split
      · next hdue => exact hrun (some phase) .timer (.timer rfl hdue)
      · split
        · next hheard => exact hrun (some phase) .token (.token rfl hheard)
        · next hdue hsilent => exact ⟨[], _, .here, rfl, .asleep rfl hsilent⟩

end Scene

/-- A wait for a lookup is a journey, and it tells where the journey has led. -/
theorem await_journey : ∀ (n : Nat) {s : Scene} {asleep : Option (LookupPhase × Nat)},
    s.world.scheduler.running = true → s.place.Foreground asleep →
    ∃ legs s', Journey s legs s' ∧ s.world.await n (.lookup s.lookup asleep) = s'.told
  | 0, s, asleep, _, hplace => by
      obtain ⟨w, l, place⟩ := s
      cases hplace <;> exact ⟨[], _, .here, rfl⟩
  | n + 1, s, asleep, hrunning, hplace => by
      obtain ⟨legs, s', hjourney, hscheduler, hattended⟩ := Scene.attend_attended hrunning hplace
      unfold World.await
      generalize s.world.attend (.lookup s.lookup asleep) = attended at hattended
      cases hattended with
      | ended htold => exact ⟨legs, s', hjourney, htold.symm⟩
      | @asleep phase due hplace' hsilent =>
          have hforeground : s'.place.Foreground (some (phase, due)) := by
            rw [hplace']
            exact .asleep
          have hgoes : ∀ w, s'.Passes w → w.scheduler.running = true →
              ∃ legs s₂, Journey s legs s₂
                ∧ w.await n (.lookup s'.lookup (some (phase, due))) = s₂.told := by
            intro w hpasses hrunning'
            obtain ⟨legs', s₂, hjourney', htold⟩ :=
              await_journey n (s := { s' with world := w }) hrunning' hforeground
            exact ⟨legs ++ legs', s₂, (hjourney.passes hpasses).append hjourney', htold⟩
          have hrunning' : s'.world.scheduler.running = true := by rw [hscheduler]; exact hrunning
          dsimp only
          split
          · split
            · exact ⟨legs, s', hjourney, by rw [Scene.told, hplace']⟩
            · next time hnext =>
              -- The clock moves to the first time that is due, at the latest to the lookup's own.
              have hfirst : time ≤ due := (World.nextDue?_le hnext).1 due rfl
              refine hgoes _ (.elapses (Nat.le_max_left _ _) ?_ rfl) hrunning'
              rw [Scene.Allows, hplace']
              have hdue := Nat.le_trans hfirst (Nat.le_max_right s'.time due)
              exact ⟨Nat.max_le.mpr ⟨Nat.le_max_left _ _, hdue⟩,
                fun hheard => absurd hheard hsilent⟩
          · have hholds := World.drain_holds
              (2 * s'.world.scheduler.tasks.size + s'.world.scheduler.queue.length) s'.world
            exact hgoes _ (.happens hholds.now hholds.cancelled)
              (hholds.running.trans hrunning')

end Lookup

end GatewayClient
