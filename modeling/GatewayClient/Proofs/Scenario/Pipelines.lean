import GatewayClient.Proofs.Delivery.Routing
import GatewayClient.Proofs.Scenario.History

/-!
# Pipelines over a history

Calls build pipelines, bring events to them and register listeners, and tasks and lookups leave
records. None of this takes anything away from a stage: what it was at one point of a history it is
at every later point, perhaps with more sinks (`History.grows`). The surroundings of a history are
free to do anything to the hub, so of them the same is asked.
-/

namespace GatewayClient

namespace World

/-- The stages are as they were. -/
def SameStages (w w' : World) : Prop := w'.hub.stages = w.hub.stages

variable {w w' w'' : World}

theorem SameStages.refl (w : World) : w.SameStages w := rfl

theorem SameStages.trans (hfirst : w.SameStages w') (hsecond : w'.SameStages w'') :
    w.SameStages w'' := Eq.trans hsecond hfirst

theorem SameStages.grows (hsame : w.SameStages w') : w.hub.Grows w'.hub := Hub.grows_of_eq hsame

/-! ## Starting logins and lookups -/

theorem spawn_stages {work : Work} {id : TaskId} (hspawn : w.spawn work = .ok (id, w')) :
    w.SameStages w' := by
  unfold spawn Scheduler.spawn at hspawn
  dsimp only at hspawn
  split at hspawn <;> cases hspawn
  exact rfl

theorem startLogin_stages (s : LoginStart) (w : World) : w.SameStages (w.startLogin s).1 := by
  have hnoted : w.SameStages (w.noteAll s.notes) := rfl
  cases s with
  | failed shard e => exact hnoted
  | opening request =>
      unfold startLogin
      dsimp only
      split
      · exact hnoted
      · next hspawn => exact hnoted.trans (spawn_stages hspawn)

theorem startLogins_stages (starts : List LoginStart) (w : World) :
    w.SameStages (w.startLogins starts).1 := by
  induction starts generalizing w with
  | nil => exact .refl w
  | cons s rest ih =>
      have hfirst := startLogin_stages s w
      unfold startLogins
      split
      · next hbroke =>
        rw [hbroke] at hfirst
        exact hfirst
      · next w₁ _ hstarted =>
        rw [hstarted] at hfirst
        exact hfirst.trans (ih w₁)

theorem startBatch_stages (h : String) (b : LoginBatch) (w : World) :
    w.SameStages (w.startBatch h b).1 := by
  have hnoted : w.SameStages (w.noteAll b.announcement) := rfl
  have hstarts := hnoted.trans (startLogins_stages b.starts _)
  unfold startBatch
  split
  · next hbroke =>
    rw [hbroke] at hstarts
    exact hstarts
  · next hstarted =>
    rw [hstarted] at hstarts
    exact hstarts

theorem answerBatch_stages (h : String) (b : LoginBatch) (w : World) :
    w.SameStages (w.answerBatch h b).1 := by
  have hbatch := startBatch_stages h b w
  unfold answerBatch
  split
  · next hbroke =>
    rw [hbroke] at hbatch
    exact hbatch
  · next hstarted =>
    rw [hstarted] at hbatch
    exact hbatch

theorem startClientBatch_stages (h : String) (b : Except ClientError LoginBatch) (w : World) :
    w.SameStages (w.startClientBatch h b).1 := by
  cases b with
  | error e => exact .refl w
  | ok b => exact answerBatch_stages h b w

theorem startLookup_stages (h : String) (token : Option String) (w : World) :
    w.SameStages (w.startLookup h token).1 := by
  unfold startLookup
  split
  · exact rfl
  · split
    · exact .refl w
    · next hspawn =>
      have hsame := spawn_stages hspawn
      exact hsame

/-! ## Calls -/

theorem perform_grows (w : World) {s : Step} (hwaits : ¬ s.Waits) :
    w.hub.Grows (w.perform s).1.hub := by
  cases s with
  | advance | await | probeOnce | runLookup => exact absurd trivial hwaits
  | hub s => exact Hub.step_grows Consumer.acts w.hub s
  | deliver session category payload =>
      change w.hub.Grows (w.deliverTo session category payload).1.hub
      unfold deliverTo
      split
      · exact .refl w.hub
      · exact Hub.serve_grows Consumer.acts _ _ w.hub
  | login h => exact (answerBatch_stages h _ w).grows
  | loginShards h shards => exact (startClientBatch_stages h _ w).grows
  | loginAll h => exact (startClientBatch_stages h _ w).grows
  | loginMatching h wanted => exact (startClientBatch_stages h _ w).grows
  | discover h token => exact (startLookup_stages h token w).grows
  | failedLogin h e => exact (answerBatch_stages h _ w).grows
  | cancel token after =>
      cases after with
      | none => exact .refl w.hub
      | some ms =>
          unfold perform
          dsimp only
          split
          · exact .refl w.hub
          · next hspawn => exact (spawn_stages hspawn).grows
  | startBatch h shards refusals =>
      unfold perform
      dsimp only
      split
      · exact .refl w.hub
      · next b _ =>
        have hbatch := startBatch_stages h b w
        split
        · next hbroke =>
          rw [hbroke] at hbatch
          exact hbatch.grows
        · next hstarted =>
          rw [hstarted] at hbatch
          exact hbatch.grows
  | startShard h index total =>
      unfold perform
      dsimp only
      split
      · exact .refl w.hub
      · exact (answerBatch_stages h _ w).grows
  | set s =>
      rw [perform_set]
      split <;> exact .refl w.hub
  | ofSettings s =>
      rw [perform_ofSettings]
      split
      · exact .refl w.hub
      · exact Hub.grows_of_eq rfl
  | addPipeline category stage =>
      rw [perform_addPipeline]
      split
      · exact .refl w.hub
      · exact Hub.grows_of_eq rfl
  | number current total =>
      unfold perform
      dsimp only
      split <;> exact .refl w.hub
  | renumber current total =>
      unfold perform
      dsimp only
      split <;> exact .refl w.hub
  | _ => exact Hub.grows_of_eq rfl

/-! ## Tasks -/

theorem openSession_stages (number : Nat) (q : ConnectionRequest) (response : Response Unit)
    (w : World) : w.SameStages (w.openSession number q response).1 := by
  cases response <;> exact rfl

theorem connect_stages (q : ConnectionRequest) (w : World) : w.SameStages (w.connect q).1 := by
  have hpart : ∀ gateway, w.SameStages ({ w with gateway }.note handshake) := fun _ => rfl
  unfold connect
  dsimp only
  split
  · exact hpart _
  · exact (hpart _).trans (openSession_stages _ _ _ _)

theorem stepLookup_stages (l : Lookup) (phase : Option LookupPhase) (wake : Wake) (w : World) :
    w.SameStages (w.stepLookup l phase wake).1 := by
  unfold stepLookup
  rcases phase with _ | phase | n
  · split <;> exact rfl
  · exact rfl
  · cases wake with
    | token => exact rfl
    | _ => split <;> exact rfl

theorem runLookup_stages (k : ClientId) (l : Lookup) (phase : Option LookupPhase) (wake : Wake)
    (w : World) : w.SameStages (w.runLookup k l phase wake).1 := by
  have hstep := stepLookup_stages l phase wake w
  unfold runLookup
  rcases hlookup : w.stepLookup l phase wake with ⟨w₁, step⟩
  rw [hlookup] at hstep
  dsimp only at hstep ⊢
  split
  · exact hstep
  · exact hstep
  · exact hstep
  · next report _ =>
    rcases applyReport_cases k report w₁ with ⟨e, -, heq⟩ | ⟨c, -, heq⟩
    · rw [heq]
      exact hstep
    · rw [heq]
      exact hstep

theorem run_stages (work : Work) (wake : Wake) (w : World) : w.SameStages (w.run work wake).1 := by
  cases work with
  | connect q => exact connect_stages q w
  | opening number q response => exact openSession_stages number q response w
  | lookup k l phase => exact runLookup_stages k l phase wake w
  | cancelAfter => exact .refl w
  | cancelNow => exact rfl

theorem runTask_stages (id : TaskId) (wake : Wake) (w : World) :
    w.SameStages (w.runTask id wake) := by
  rcases runTask_cases id wake w with ⟨work, heq⟩ | heq
  · rw [heq]
    exact run_stages work wake w
  · rw [heq]
    exact .refl w

/-! ## Histories -/

theorem Passes.grows {mover : Mover} (hpasses : w.Passes mover w')
    (hcalm : mover = .surroundings → w.hub.Grows w'.hub) : w.hub.Grows w'.hub := by
  cases hpasses with
  | call hwaits => exact perform_grows w hwaits
  | task id wake => exact (runTask_stages id wake w).grows
  | aside => exact hcalm rfl

/-- The surroundings leave the stages as they were, but for more sinks. -/
def Calm (ps : List Passage) : Prop :=
  ∀ p ∈ ps, p.mover = .surroundings → p.before.hub.Grows p.after.hub

/-- What a stage was at some point of a history it is at the end, but for more sinks. -/
theorem History.grows {ps : List Passage} (hhistory : w.History ps w') (hcalm : Calm ps) :
    w.hub.Grows w'.hub ∧ ∀ p ∈ ps, p.after.hub.Grows w'.hub := by
  induction hhistory with
  | start => exact ⟨.refl w.hub, fun p hp => (List.not_mem_nil hp).elim⟩
  | passage _ hpasses ih =>
      obtain ⟨hpast, hall⟩ := ih fun p hp => hcalm p (List.mem_append_left _ hp)
      have hlast := hpasses.grows fun hmover =>
        hcalm _ (List.mem_append_right _ (List.mem_singleton_self _)) hmover
      refine ⟨hpast.trans hlast, fun p hp => ?_⟩
      rcases List.mem_append.mp hp with hold | hnew
      · exact (hall p hold).trans hlast
      · obtain rfl := List.mem_singleton.mp hnew
        exact .refl _

end World

end GatewayClient
