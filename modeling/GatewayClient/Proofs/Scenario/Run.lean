import GatewayClient.Scenario.Step

/-!
# Runs of a world

A run is made of moves, in any order: calls, runs of tasks, and whatever leaves the clients alone,
such as the passing of time or what the collaborators do. A task may run at any time and for any
reason, so runs allow for more than the scheduler of a scenario does. In particular every scenario
is a run (`leads_play`), as a step that waits is a row of moves of its own.
-/

namespace GatewayClient

/-- What a move of a world tells of itself. -/
inductive Event
  | called (client : ClientId) (s : Step) (a : Answer)
  /-- A lookup applied a total to the client that started it. -/
  | applied (client : ClientId) (total : UInt32)
  | other

/-- What a lookup tells, of the total that it applied if it did. -/
def Event.ofApplied (client : ClientId) : Option UInt32 → Event
  | some n => .applied client n
  | none => .other

/-- A step that waits; tasks run meanwhile. -/
def Step.Waits : Step → Prop
  | .advance _ | .await .. | .probeOnce | .runLookup _ => True
  | _ => False

/-- A step that makes or configures a client. -/
def Step.Configures : Step → Prop
  | .ofSettings _ | .set _ | .addListener .. | .addPipeline .. => True
  | _ => False

def Progress.applied? : Progress → Option UInt32
  | .ended (.returned (.ok (.total n))) => some n
  | _ => none

namespace World

/-- The clients are as they were, and calls are made on the same one. -/
structure SameClients (w w' : World) : Prop where
  clients : w'.clients = w.clients
  current : w'.current = w.current

theorem SameClients.trans {w w' w'' : World} (h : w.SameClients w') (h' : w'.SameClients w'') :
    w.SameClients w'' :=
  ⟨h'.clients.trans h.clients, h'.current.trans h.current⟩

def runEvent (id : TaskId) (wake : Wake) (w : World) : Event :=
  match w.scheduler.tasks[id]? with
  | some (.live (.lookup client l phase)) =>
    .ofApplied client (w.runLookup client l phase wake).2.applied?
  | _ => .other

inductive Move : World → Event → World → Prop
  | call {w : World} {s : Step} :
      ¬ s.Waits → Move w (.called w.current s (w.perform s).2) (w.perform s).1
  | task {w : World} (id : TaskId) (wake : Wake) : Move w (w.runEvent id wake) (w.runTask id wake)
  | aside {w w' : World} : w.SameClients w' → Move w .other w'

/-- Moves one after the other, with what they tell. -/
inductive Runs : World → List Event → World → Prop
  | refl (w : World) : Runs w [] w
  | cons {w w' w'' : World} {ev : Event} {l : List Event} :
      Move w ev w' → Runs w' l w'' → Runs w (ev :: l) w''

theorem Runs.append {w w' w'' : World} {l l' : List Event} (hruns : Runs w l w')
    (hruns' : Runs w' l' w'') : Runs w (l ++ l') w'' := by
  induction hruns with
  | refl => exact hruns'
  | cons hmove _ ih => exact .cons hmove (ih hruns')

/-- Some run leads from one world to another. -/
def Leads (w w' : World) : Prop := ∃ l, Runs w l w'

theorem Leads.trans {w w' w'' : World} (h : w.Leads w') (h' : w'.Leads w'') : w.Leads w'' := by
  obtain ⟨l, hruns⟩ := h
  obtain ⟨l', hruns'⟩ := h'
  exact ⟨l ++ l', hruns.append hruns'⟩

theorem Move.leads {w w' : World} {ev : Event} (hmove : Move w ev w') : w.Leads w' :=
  ⟨[ev], .cons hmove (.refl w')⟩

theorem SameClients.leads {w w' : World} (h : w.SameClients w') : w.Leads w' :=
  (Move.aside h).leads

/-! ## What leaves clients and scheduler alone -/

/-- Clients and scheduler are as they were. -/
structure Aside (w w' : World) : Prop extends SameClients w w' where
  scheduler : w'.scheduler = w.scheduler

theorem Aside.refl (w : World) : w.Aside w := ⟨⟨rfl, rfl⟩, rfl⟩

theorem Aside.trans {w w' w'' : World} (h : w.Aside w') (h' : w'.Aside w'') : w.Aside w'' :=
  ⟨h.toSameClients.trans h'.toSameClients, h'.scheduler.trans h.scheduler⟩

theorem stepLookup_aside (l : Lookup) (phase : Option LookupPhase) (wake : Wake) (w : World) :
    w.Aside (w.stepLookup l phase wake).1 := by
  unfold stepLookup
  rcases phase with _ | phase | n
  · split <;> exact ⟨⟨rfl, rfl⟩, rfl⟩
  · exact ⟨⟨rfl, rfl⟩, rfl⟩
  · cases wake with
    | token => exact ⟨⟨rfl, rfl⟩, rfl⟩
    | _ => split <;> exact ⟨⟨rfl, rfl⟩, rfl⟩

/-- Both writes of a lookup, one right after the other. -/
theorem applyReport_cases (k : ClientId) (report : LookupReport) (w : World) :
    (∃ e, ((w.clients[k]?).getD {}).setTotalShards report.recommendation.shardCount = .error e
      ∧ w.applyReport k report = (w, .error e))
      ∨ ∃ c, ((w.clients[k]?).getD {}).setTotalShards report.recommendation.shardCount = .ok c
        ∧ w.applyReport k report =
          ({ w with
              clients :=
                w.clients.setIfInBounds k
                  { c with endpoint := some report.recommendation.endpoint } }.note
            (Client.applied report),
            .ok (.total report.recommendation.shardCount)) := by
  unfold applyReport writeTotal
  cases hset : ((w.clients[k]?).getD {}).setTotalShards report.recommendation.shardCount with
  | error e => exact .inl ⟨e, rfl, rfl⟩
  | ok c =>
      refine .inr ⟨c, rfl, ?_⟩
      simp only [writeEndpoint, Array.setIfInBounds_setIfInBounds]
      by_cases hk : k < w.clients.size
      · rw [Array.getElem?_setIfInBounds_self_of_lt hk, Option.getD_some]
      · simp only [Array.setIfInBounds_eq_of_size_le (Nat.not_lt.mp hk)]

theorem openSession_aside (number : Nat) (request : ConnectionRequest) (response : Response Unit)
    (w : World) : w.Aside (w.openSession number request response).1 := by
  cases response <;> exact ⟨⟨rfl, rfl⟩, rfl⟩

theorem connect_aside (request : ConnectionRequest) (w : World) :
    w.Aside (w.connect request).1 := by
  have hpart : ∀ gateway, w.Aside ({ w with gateway }.note handshake) := fun _ => ⟨⟨rfl, rfl⟩, rfl⟩
  unfold connect
  dsimp only
  split
  · exact hpart _
  · exact (hpart _).trans (openSession_aside _ _ _ _)

theorem followProbe_aside (request : ProbeRequest) (s : ProbeStep) (w : World) :
    w.Aside (w.followProbe request s).1 := by
  unfold followProbe
  dsimp only
  split
  · split <;> exact ⟨⟨rfl, rfl⟩, rfl⟩
  · exact ⟨⟨rfl, rfl⟩, rfl⟩
  · exact ⟨⟨rfl, rfl⟩, rfl⟩

theorem followLookup_aside (l : Lookup) (phase : Option LookupPhase) (wake : Wake) (w : World) :
    w.Aside (w.followLookup l phase wake).1 := by
  have hstep := stepLookup_aside l phase wake w
  unfold followLookup
  dsimp only
  split
  · split <;> exact hstep
  · exact hstep
  · exact hstep

theorem attend_aside (fg : Foreground) (w : World) : w.Aside (w.attend fg).1 := by
  cases fg with
  | resolve pending => unfold attend; dsimp only; split <;> exact .refl w
  | sleep due => unfold attend; dsimp only; split <;> exact .refl w
  | probe request asleep =>
      cases asleep with
      | none =>
          have htaken : w.Aside { w with plane := (w.plane.take w.scheduler.now request).2 } :=
            ⟨⟨rfl, rfl⟩, rfl⟩
          exact htaken.trans (followProbe_aside request _ _)
      | some p =>
          unfold attend
          dsimp only
          split
          · exact followProbe_aside request _ w
          · exact .refl w
  | lookup l asleep =>
      cases asleep with
      | none => exact followLookup_aside l none .started w
      | some p =>
          unfold attend
          dsimp only
          split
          · exact followLookup_aside l _ .timer w
          · split
            · exact followLookup_aside l _ .token w
            · exact .refl w

theorem attained_aside (a : Attained) (w : World) : w.Aside (w.attained a).1 := by
  cases a <;> exact ⟨⟨rfl, rfl⟩, rfl⟩

/-! ## Calls -/

/-- The work with which calls start tasks. -/
inductive Starts (w : World) : Work → Prop
  | connect {q : ConnectionRequest} : Starts w (.connect q)
  | lookup {token : Option String} {l : Lookup} : w.client.lookup token = .ok l →
      Starts w (.lookup w.current l none)
  | cancelAfter {ms : Nat} {token : String} : Starts w (.cancelAfter ms token)

/-- What goes from a world to the one after, whether a call leaves clients and scheduler alone,
starts a task or cancels a token. -/
structure LiveFrame (R : World → World → Prop) : Prop where
  trans : ∀ {w w' w'' : World}, R w w' → R w' w'' → R w w''
  aside : ∀ {w w' : World}, w.Aside w' → R w w'
  spawn : ∀ {work : Work} {w w' : World} {id : TaskId}, w.Starts work →
    w.spawn work = .ok (id, w') → R w w'
  cancel : ∀ (token : String) (w : World), R w { w with scheduler := w.scheduler.cancel token }

/-- The same for every call, a shutdown included. -/
structure Frame (R : World → World → Prop) : Prop extends LiveFrame R where
  shutDown : ∀ w : World, R w { w with scheduler := w.scheduler.shutDown }

namespace LiveFrame

variable {R : World → World → Prop} (hR : LiveFrame R)
include hR

theorem startLogin (s : LoginStart) (w : World) : R w (w.startLogin s).1 := by
  have hnoted : R w (w.noteAll s.notes) := hR.aside ⟨⟨rfl, rfl⟩, rfl⟩
  cases s with
  | failed shard e => exact hnoted
  | opening request =>
      unfold World.startLogin
      dsimp only
      split
      · exact hnoted
      · next hspawn => exact hR.trans hnoted (hR.spawn .connect hspawn)

theorem startLogins : ∀ (starts : List LoginStart) (w : World), R w (w.startLogins starts).1
  | [], w => hR.aside (.refl w)
  | s :: rest, w => by
      have hfirst := hR.startLogin s w
      unfold World.startLogins
      split
      · next w₁ f hbroke => rw [hbroke] at hfirst; exact hfirst
      · next w₁ p hstarted =>
        rw [hstarted] at hfirst
        exact hR.trans hfirst (startLogins rest w₁)

theorem startBatch (h : String) (b : LoginBatch) (w : World) : R w (w.startBatch h b).1 := by
  have hnoted : R w (w.noteAll b.announcement) := hR.aside ⟨⟨rfl, rfl⟩, rfl⟩
  have hstarts := hR.trans hnoted (hR.startLogins b.starts _)
  unfold World.startBatch
  split
  · next w₁ f hbroke => rw [hbroke] at hstarts; exact hstarts
  · next w₁ pending hstarted =>
    rw [hstarted] at hstarts
    exact hR.trans hstarts (hR.aside ⟨⟨rfl, rfl⟩, rfl⟩)

theorem answerBatch (h : String) (b : LoginBatch) (w : World) : R w (w.answerBatch h b).1 := by
  have hbatch := hR.startBatch h b w
  unfold World.answerBatch
  split
  · next hbroke => rw [hbroke] at hbatch; exact hbatch
  · next hstarted => rw [hstarted] at hbatch; exact hbatch

theorem startClientBatch (h : String) (b : Except ClientError LoginBatch) (w : World) :
    R w (w.startClientBatch h b).1 := by
  cases b with
  | error e => exact hR.aside (.refl w)
  | ok b => exact hR.answerBatch h b w

theorem startLookup (h : String) (token : Option String) (w : World) :
    R w (w.startLookup h token).1 := by
  unfold World.startLookup
  split
  · exact hR.aside ⟨⟨rfl, rfl⟩, rfl⟩
  · next hlookup =>
    split
    · exact hR.aside (.refl w)
    · next hspawn =>
      exact hR.trans (hR.spawn (.lookup hlookup) hspawn) (hR.aside ⟨⟨rfl, rfl⟩, rfl⟩)

theorem deliverTo (session : String) (category : ListenerCategory) (payload : Json) (w : World) :
    R w (w.deliverTo session category payload).1 := by
  unfold World.deliverTo
  split
  · exact hR.aside (.refl w)
  · exact hR.aside ⟨⟨rfl, rfl⟩, rfl⟩

/-- A call that neither waits nor configures a client. -/
theorem perform (w : World) {s : Step} (hwaits : ¬ s.Waits) (hconfigures : ¬ s.Configures)
    (hlive : s ≠ .shutDown) : R w (w.perform s).1 := by
  have hsame : R w w := hR.aside (.refl w)
  cases s with
  | advance | await | probeOnce | runLookup => exact absurd trivial hwaits
  | ofSettings | set | addListener | addPipeline => exact absurd trivial hconfigures
  | deliver session category payload => exact hR.deliverTo session category payload w
  | shutDown => exact absurd rfl hlive
  | cancel token after =>
      cases after with
      | none => exact hR.cancel token w
      | some ms =>
          unfold World.perform
          dsimp only
          split
          · exact hsame
          · next hspawn => exact hR.spawn .cancelAfter hspawn
  | login h => exact hR.answerBatch h _ w
  | loginShards h shards => exact hR.startClientBatch h _ w
  | loginAll h => exact hR.startClientBatch h _ w
  | loginMatching h wanted => exact hR.startClientBatch h _ w
  | discover h token => exact hR.startLookup h token w
  | failedLogin h e => exact hR.answerBatch h _ w
  | number current total =>
      unfold World.perform
      dsimp only
      split
      · exact hsame
      · exact hR.aside ⟨⟨rfl, rfl⟩, rfl⟩
  | renumber current total =>
      unfold World.perform
      dsimp only
      split
      · exact hsame
      · exact hR.aside ⟨⟨rfl, rfl⟩, rfl⟩
  | startBatch h shards refusals =>
      unfold World.perform
      dsimp only
      split
      · exact hsame
      · next b _ =>
        have hbatch := hR.startBatch h b w
        split
        · next hbroke => rw [hbroke] at hbatch; exact hbatch
        · next hstarted => rw [hstarted] at hbatch; exact hbatch
  | startShard h index total =>
      unfold World.perform
      dsimp only
      split
      · exact hsame
      · exact hR.answerBatch h _ w
  | _ => exact hR.aside ⟨⟨rfl, rfl⟩, rfl⟩

end LiveFrame

theorem Frame.perform {R : World → World → Prop} (hR : Frame R) (w : World) {s : Step}
    (hwaits : ¬ s.Waits) (hconfigures : ¬ s.Configures) : R w (w.perform s).1 := by
  by_cases hdown : s = .shutDown
  · rw [hdown]
    exact hR.shutDown w
  · exact hR.toLiveFrame.perform w hwaits hconfigures hdown

/-- A world with one task more, which is queued. -/
theorem spawn_eq {work : Work} {w w' : World} {id : TaskId} (hspawn : w.spawn work = .ok (id, w')) :
    w.SameClients w' ∧ id = w.scheduler.tasks.size
      ∧ w'.scheduler =
        { w.scheduler with
          tasks := w.scheduler.tasks.push (.live work)
          queue := w.scheduler.queue ++ [(id, .started)] } := by
  unfold spawn Scheduler.spawn at hspawn
  dsimp only at hspawn
  split at hspawn
  · cases hspawn
    exact ⟨⟨rfl, rfl⟩, rfl, rfl⟩
  · cases hspawn

theorem sameClients_frame : Frame SameClients where
  trans := SameClients.trans
  aside := Aside.toSameClients
  spawn := fun _ hspawn => (spawn_eq hspawn).1
  cancel := fun _ _ => ⟨rfl, rfl⟩
  shutDown := fun _ => ⟨rfl, rfl⟩

/-- Other calls leave the clients alone. -/
theorem perform_same (w : World) {s : Step} (hwaits : ¬ s.Waits) (hconfigures : ¬ s.Configures) :
    w.SameClients (w.perform s).1 := sameClients_frame.perform w hwaits hconfigures

theorem perform_set (s : ClientSetting) (w : World) :
    w.perform (.set s) =
      match w.client.set s with
      | .error e => (w, .refused e)
      | .ok c => (w.setClient c, .nothing) := rfl

theorem perform_ofSettings (s : ClientSettings) (w : World) :
    w.perform (.ofSettings s) =
      match Client.ofSettings s with
      | .error e => (w, .refused e)
      | .ok c => ((w.replaceClient c).note (Client.configured s), .nothing) := rfl

theorem perform_addPipeline (category : ListenerCategory) (stage : String) (w : World) :
    w.perform (.addPipeline category stage) =
      match w.hub.find? stage with
      | .error f => (w, .broke f)
      | .ok id => (w.listen category (.stage id), .nothing) := rfl

theorem configure_scheduler (w : World) {s : Step} (hconfigures : s.Configures) :
    (w.perform s).1.scheduler = w.scheduler := by
  cases s with
  | set => rw [perform_set]; split <;> rfl
  | ofSettings => rw [perform_ofSettings]; split <;> rfl
  | addListener => rfl
  | addPipeline => rw [perform_addPipeline]; split <;> rfl
  | _ => exact hconfigures.elim

/-! ## Waiting is a row of moves -/

/-- What goes from a world to the one after, move by move, as the scheduler makes them: it runs the
first task of the queue, and while the queue is empty it moves the clock, not past the end of a
wait. -/
structure Covers (R : World → World → Prop) : Prop where
  trans : ∀ {w w' w'' : World}, R w w' → R w' w'' → R w w''
  aside : ∀ {w w' : World}, w.Aside w' → R w w'
  call : ∀ {w : World} {s : Step}, ¬ s.Waits → R w (w.perform s).1
  turn : ∀ {w : World} {id : TaskId} {wake : Wake} {rest : List (TaskId × Wake)},
    w.scheduler.queue = (id, wake) :: rest →
      R w ({ w with scheduler := { w.scheduler with queue := rest } }.runTask id wake)
  clock : ∀ {w : World} {time : Nat}, w.scheduler.queue = [] →
    (∀ s ∈ w.scheduler.sleepers, time ≤ s.due) →
      R w { w with scheduler := w.scheduler.moveTo time }

theorem nextDue?_le {fg : Foreground} {w : World} {time : Nat} (hnext : w.nextDue? fg = some time) :
    (∀ due, fg.due? = some due → time ≤ due) ∧ ∀ s ∈ w.scheduler.sleepers, time ≤ s.due := by
  have hmin := (List.min?_eq_some_iff.mp hnext).2
  refine ⟨fun due hdue => hmin due ?_, fun s hs => ?_⟩
  · rw [hdue]
    exact List.mem_append_left _ (List.mem_singleton_self due)
  · have hmem : s.due ∈ w.scheduler.sleepers.map (·.due) := List.mem_map_of_mem hs
    cases hfirst : w.scheduler.nextDue? with
    | none =>
        have hnone := List.min?_eq_none_iff.mp hfirst
        rw [hnone] at hmem
        cases hmem
    | some first =>
        have hle := (List.min?_eq_some_iff.mp hfirst).2 s.due hmem
        refine Nat.le_trans (hmin first ?_) hle
        rw [hfirst]
        exact List.mem_append_right _ (List.mem_singleton_self first)

namespace Covers

variable {R : World → World → Prop} (hR : Covers R)
include hR

theorem drain : ∀ (fuel : Nat) (w : World), R w (w.drain fuel)
  | 0, w => hR.aside (.refl w)
  | fuel + 1, w => by
      unfold World.drain
      split
      · exact hR.aside (.refl w)
      · next id wake rest hqueue => exact hR.trans (hR.turn hqueue) (drain fuel _)

theorem await : ∀ (patience : Nat) (fg : Foreground) (w : World), R w (w.await patience fg).1
  | 0, _, w => hR.aside (.refl w)
  | patience + 1, fg, w => by
      have hattend := hR.aside (attend_aside fg w)
      unfold World.await
      rcases hseen : w.attend fg with ⟨w₁, fg₁ | a⟩
      · rw [hseen] at hattend
        dsimp only
        split
        · next hempty =>
          split
          · exact hattend
          · next time hnext =>
            have hmoved := hR.clock (List.isEmpty_iff.mp hempty) (nextDue?_le hnext).2
            exact hR.trans (hR.trans hattend hmoved) (await patience fg₁ _)
        · exact hR.trans (hR.trans hattend (hR.drain _ w₁)) (await patience fg₁ _)
      · rw [hseen] at hattend
        exact hattend

theorem waitFor (fg : Foreground) (w : World) : R w (w.waitFor fg).1 :=
  hR.trans (hR.await patience fg w) (hR.aside (attained_aside _ _))

theorem resolve (pending : List Pending) (again : Bool) (w : World) :
    R w (w.resolve pending again).1 := by
  have hawait := hR.await patience (.resolve pending) w
  unfold World.resolve
  split
  · next w₁ hresolved => rw [hresolved] at hawait; exact hawait
  · next w₁ _ _ hended => rw [hended] at hawait; exact hawait

/-- Every step is a row of moves, whether it waits or not. -/
theorem perform (w : World) (s : Step) : R w (w.perform s).1 := by
  cases s with
  | advance ms =>
      unfold World.perform
      dsimp only
      split
      · exact hR.waitFor _ w
      · exact hR.aside (.refl w)
  | await h again =>
      unfold World.perform
      dsimp only
      split
      · exact hR.aside (.refl w)
      · next handle _ =>
        have hforget : R w (w.forget h) := hR.aside ⟨⟨rfl, rfl⟩, rfl⟩
        exact hR.trans hforget (hR.resolve handle.pending again _)
  | probeOnce => exact hR.waitFor _ w
  | runLookup token => exact hR.waitFor _ w
  | _ => exact hR.call id

theorem play : ∀ (steps : List Step) (w : World), R w (w.play steps).1
  | [], w => hR.aside (.refl w)
  | s :: rest, w => by
      have hcleared : R w { w with hub := { w.hub with received := [], journal := [] } } :=
        hR.aside ⟨⟨rfl, rfl⟩, rfl⟩
      exact hR.trans (hR.trans hcleared (hR.perform _ s)) (play rest _)

end Covers

theorem leads_covers : Covers Leads where
  trans := Leads.trans
  aside := fun haside => haside.toSameClients.leads
  call := fun hwaits => (Move.call hwaits).leads
  turn := by
    intro w id wake rest _
    have hpop : w.SameClients { w with scheduler := { w.scheduler with queue := rest } } :=
      ⟨rfl, rfl⟩
    exact hpop.leads.trans (Move.task id wake).leads
  clock := by
    intro w time _ _
    have hmoved : w.SameClients { w with scheduler := w.scheduler.moveTo time } := ⟨rfl, rfl⟩
    exact hmoved.leads

/-- Every scenario is a run. -/
theorem leads_play (steps : List Step) (w : World) : w.Leads (w.play steps).1 :=
  leads_covers.play steps w

end World

end GatewayClient
