import GatewayClient.Proofs.Delivery.Confined
import GatewayClient.Proofs.Delivery.Tours

/-!
# Pipelines that are built without attaching have no cycles

A stage that is derived is new, so the link to it leads to a later stage, whoever derives it and
whenever. Only attaching links stages that are there already. So as long as nobody attaches, neither
the steps that build nor the consumers, every link leads to a later stage (`Ascends`), and there are
no cycles (`acyclic_run`).
-/

namespace GatewayClient

/-- The act does not link stages that are there already. -/
def Act.Unattached : Act → Prop
  | .attach .. => False
  | _ => True

def HubStep.Unattached : HubStep → Prop
  | .attach .. => False
  | _ => True

namespace Hub

/-! ## Names and numbers stay -/

/-- No name is given or taken, and no stage is lost. -/
structure Enlarges (h h' : Hub) : Prop where
  names : h'.names = h.names
  size : h.stages.size ≤ h'.stages.size

section

variable {h h' h'' : Hub}

theorem Enlarges.refl (h : Hub) : h.Enlarges h := ⟨rfl, Nat.le_refl _⟩

theorem Enlarges.trans (hfirst : h.Enlarges h') (hsecond : h'.Enlarges h'') : h.Enlarges h'' :=
  ⟨hsecond.names.trans hfirst.names, Nat.le_trans hfirst.size hsecond.size⟩

theorem size_attach (id : StageId) (sink : Sink) (h : Hub) :
    (h.attach id sink).stages.size = h.stages.size :=
  Array.size_modify ..

theorem size_consume (id : StageId) (name : String) (reaction : Reaction) (h : Hub) :
    (h.consume id name reaction).stages.size = h.stages.size :=
  Array.size_modify ..

theorem size_derive (parent : StageId) (operation : Operation) (h : Hub) :
    (h.derive parent operation).2.stages.size = h.stages.size + 1 := by
  rw [derive, size_attach, addStage, Array.size_push]

theorem lt_derive (parent : StageId) (operation : Operation) (h : Hub) :
    (h.derive parent operation).1 < (h.derive parent operation).2.stages.size := by
  rw [size_derive]
  exact Nat.lt_succ_self _

theorem attach_enlarges (id : StageId) (sink : Sink) (h : Hub) : h.Enlarges (h.attach id sink) :=
  ⟨rfl, Nat.le_of_eq (size_attach id sink h).symm⟩

theorem derive_enlarges (parent : StageId) (operation : Operation) (h : Hub) :
    h.Enlarges (h.derive parent operation).2 :=
  ⟨rfl, by rw [size_derive]; exact Nat.le_succ _⟩

theorem consume_enlarges (id : StageId) (name : String) (reaction : Reaction) (h : Hub) :
    h.Enlarges (h.consume id name reaction) :=
  ⟨rfl, Nat.le_of_eq (size_consume id name reaction h).symm⟩

theorem atStage_enlarges {stage : StageRef} {next : StageId → Hub × Outcome}
    (hsame : h.Enlarges h') (hnext : ∀ id, h.Enlarges (next id).1) :
    h.Enlarges (h'.atStage stage next).1 := by
  unfold atStage
  split
  · exact hsame
  · exact hnext _

theorem perform_enlarges (courier : Courier) (c : Consumer) (h : Hub) {a : Act}
    (ha : ¬ a.Emits) : h.Enlarges (h.perform courier c a).1 := by
  have hsame := Enlarges.refl h
  cases a with
  | breakOff f => exact hsame
  | feed stage e => exact absurd trivial ha
  | dispatch e => exact absurd trivial ha
  | addConsumer stage name reaction =>
      exact atStage_enlarges hsame fun id => consume_enlarges id name reaction h
  | addConsumerOnce stage name reaction =>
      rw [perform]
      split
      · exact hsame
      · have hspent : h.Enlarges { h with spent := c.id :: h.spent } := ⟨rfl, Nat.le_refl _⟩
        exact atStage_enlarges hspent fun id => hspent.trans (consume_enlarges id name reaction _)
  | addBranch stage operation name reaction =>
      exact atStage_enlarges hsame fun id =>
        (derive_enlarges id operation h).trans (consume_enlarges _ name reaction _)
  | addStage stage operation =>
      exact atStage_enlarges hsame fun id => derive_enlarges id operation h
  | attach stage child =>
      exact atStage_enlarges hsame fun id =>
        atStage_enlarges hsame fun c => attach_enlarges id (.stage c) h
  | register category name reaction => exact ⟨rfl, Nat.le_refl _⟩

/-! ## Links lead to later stages -/

/-- Every link leads to a stage that was made later, and every name is that of a stage. -/
structure Ascends (h : Hub) : Prop where
  lt : ∀ {a b}, h.Link a b → a < b
  names : ∀ n ∈ h.names, n.2 < h.stages.size

theorem Ascends.acyclic (hh : h.Ascends) : h.Acyclic := acyclic_of_lt hh.lt

theorem Ascends.of_gains {more : Additions} (hh : h.Ascends) (hgains : h.Gains more h')
    (henlarges : h.Enlarges h') (hmore : ∀ a b, (Source.stage a, Sink.stage b) ∈ more → a < b) :
    h'.Ascends where
  lt {a b} hlink := by
    rw [← mem_sinksOf_stage, hgains.sinks] at hlink
    rcases List.mem_append.mp hlink with hold | hnew
    · exact hh.lt (mem_sinksOf_stage.mp hold)
    · obtain ⟨⟨source, sink⟩, hk, hsink⟩ := List.mem_map.mp hnew
      obtain ⟨hk, hsource⟩ := List.mem_filter.mp hk
      obtain rfl : source = .stage a := of_decide_eq_true hsource
      obtain rfl : sink = .stage b := hsink
      exact hmore a b hk
  names n hn := by
    rw [henlarges.names] at hn
    exact Nat.lt_of_lt_of_le (hh.names n hn) henlarges.size

theorem Ascends.lt_of_find? (hh : h.Ascends) {name : String} {id : StageId}
    (hid : h.find? name = .ok id) : id < h.stages.size := by
  unfold find? at hid
  split at hid
  · next n hn =>
    cases hid
    exact hh.names n (List.mem_of_find?_eq_some hn)
  · cases hid

theorem Ascends.lt_of_locate? (hh : h.Ascends) {stage : StageRef} {id : StageId}
    (hid : h.locate? stage = .ok id) : id < h.stages.size := by
  cases stage with
  | named name => exact hh.lt_of_find? hid
  | numbered n =>
      rw [locate?] at hid
      split at hid
      · next hlt =>
        cases hid
        exact hlt
      · cases hid

theorem lt_of_mem_derived {parent : StageId} (hparent : parent < h.stages.size) {a b : StageId}
    (hk : (Source.stage a, Sink.stage b) ∈ h.derived parent) : a < b := by
  unfold derived at hk
  split at hk
  · cases List.mem_singleton.mp hk
    exact hparent
  · cases hk

theorem not_mem_consumed {id : StageId} {name : String} {reaction : Reaction} {a b : StageId} :
    (Source.stage a, Sink.stage b) ∉ h.consumed id name reaction := by
  unfold consumed attached
  split <;> simp

/-- What an act links is new, unless it attaches. -/
theorem lt_of_mem_appends (hh : h.Ascends) {c : Consumer} {act : Act} (hact : act.Unattached)
    {a b : StageId} (hk : (Source.stage a, Sink.stage b) ∈ act.appends c h) : a < b := by
  cases act with
  | addConsumer stage name reaction =>
      obtain ⟨id, -, hk⟩ := mem_wherever hk
      exact absurd hk not_mem_consumed
  | addConsumerOnce stage name reaction =>
      rw [Act.appends] at hk
      split at hk
      · cases hk
      · obtain ⟨id, -, hk⟩ := mem_wherever hk
        exact absurd hk not_mem_consumed
  | addBranch stage operation name reaction =>
      obtain ⟨id, hid, hk⟩ := mem_wherever hk
      rcases List.mem_append.mp hk with hk | hk
      · exact lt_of_mem_derived (hh.lt_of_locate? hid) hk
      · exact absurd hk not_mem_consumed
  | addStage stage operation =>
      obtain ⟨id, hid, hk⟩ := mem_wherever hk
      exact lt_of_mem_derived (hh.lt_of_locate? hid) hk
  | attach stage child => exact hact.elim
  | register category name reaction => cases List.mem_singleton.mp hk
  | breakOff f => cases hk
  | feed stage e => cases hk
  | dispatch e => cases hk

theorem unbroken_ascends : Unbroken Act.Unattached Ascends where
  receive hh _ _ := ⟨hh.lt, hh.names⟩
  note hh _ := ⟨hh.lt, hh.names⟩
  act hh _ ha hemits courier c :=
    hh.of_gains (perform_gains courier c _ hemits) (perform_enlarges courier c _ hemits)
      fun _ _ => lt_of_mem_appends hh ha

/-! ## Building -/

theorem addStage_ascends (operation : Operation) (policy : DeliveryPolicy) (hh : h.Ascends) :
    (h.addStage operation policy).2.Ascends := by
  refine hh.of_gains (addStage_gains operation policy h) ⟨rfl, ?_⟩ nofun
  rw [addStage, Array.size_push]
  exact Nat.le_succ _

theorem derive_ascends {parent : StageId} (operation : Operation) (hh : h.Ascends)
    (hparent : parent < h.stages.size) : (h.derive parent operation).2.Ascends :=
  hh.of_gains (derive_gains parent operation h) (derive_enlarges parent operation h)
    fun _ _ => lt_of_mem_derived hparent

theorem chain_ascends (operation : Operation) :
    ∀ (n : Nat) {id : StageId} {h : Hub}, h.Ascends → id < h.stages.size →
      (h.chain operation n id).2.Ascends
        ∧ (h.chain operation n id).1 < (h.chain operation n id).2.stages.size
  | 0, _, _, hh, hid => ⟨hh, hid⟩
  | n + 1, id, h, hh, hid =>
    chain_ascends operation n (derive_ascends operation hh hid) (lt_derive id operation h)

theorem bind_ascends {id : StageId} (name : String) (hh : h.Ascends) (hid : id < h.stages.size) :
    (h.bind name id).Ascends where
  lt := hh.lt
  names n hn := by
    rcases List.mem_cons.mp hn with rfl | hn
    · exact hid
    · exact hh.names n hn

theorem withStage_ascends {name : String} {next : StageId → Hub × HubAnswer} (hh : h.Ascends)
    (hnext : ∀ id, id < h.stages.size → (next id).1.Ascends) :
    (h.withStage name next).1.Ascends := by
  unfold withStage
  split
  · exact hh
  · next id hid => exact hnext id (hh.lt_of_find? hid)

theorem step_ascends (behaviour : Behaviour) {s : HubStep} (hs : s.Unattached) (hh : h.Ascends)
    (hemits : ¬ s.Emits) : (h.step behaviour s).1.Ascends := by
  have hnew : ∀ operation policy,
      h.stages.size < (h.addStage operation policy).2.stages.size := fun operation policy => by
    rw [addStage, Array.size_push]
    exact Nat.lt_succ_self _
  cases s with
  | accept stage e => exact absurd trivial hemits
  | acceptAll stage es => exact absurd trivial hemits
  | dispatch e => exact absurd trivial hemits
  | attach parent child => exact hs.elim
  | start name policy =>
      exact bind_ascends name (addStage_ascends .identity policy hh) (hnew .identity policy)
  | standalone name operation =>
      exact bind_ascends name (addStage_ascends operation .failFast hh) (hnew operation .failFast)
  | derive parent name operation =>
      exact withStage_ascends hh fun p hp =>
        bind_ascends name (derive_ascends operation hh hp) (lt_derive p operation h)
  | chain parent name length operation =>
      refine withStage_ascends hh fun p hp => ?_
      obtain ⟨hchain, hlast⟩ := chain_ascends operation length hh hp
      exact bind_ascends name hchain hlast
  | consume stage consumer reaction =>
      exact withStage_ascends hh fun id _ => hh.of_gains (consume_gains id consumer reaction h)
        (consume_enlarges id consumer reaction h) fun _ _ hk => absurd hk not_mem_consumed
  | register category consumer reaction => exact ⟨hh.lt, hh.names⟩
  | registerStage category stage => exact withStage_ascends hh fun _ _ => ⟨hh.lt, hh.names⟩
  | stage name =>
      refine withStage_ascends hh fun id _ => ?_
      split <;> exact hh
  | listenersFor category => exact hh
  | snapshot => exact hh
  | registry => exact hh

end

/-- **Without attaching there are no cycles**, whatever steps are taken and whatever consumers make
while they are called. -/
theorem acyclic_run {behaviour : Behaviour} {kind : Consumer → Prop}
    (hconfined : Confined behaviour Act.Unattached kind) :
    ∀ (steps : List HubStep) {h : Hub}, (∀ s ∈ steps, s.Unattached ∧ s.OfKind kind) →
      h.Only kind → h.Ascends → (h.run behaviour steps).Acyclic
  | [], _, _, _, hh => hh.acyclic
  | s :: rest, h, hsteps, honly, hh => by
      obtain ⟨hs, hkind⟩ := hsteps s List.mem_cons_self
      obtain ⟨honly', hh'⟩ := step_keeps_confined hconfined unbroken_ascends hkind
        (step_ascends behaviour hs hh) honly hh
      exact acyclic_run hconfined rest (fun s hs => hsteps s (List.mem_cons_of_mem _ hs)) honly' hh'

theorem ascends_empty : ({} : Hub).Ascends where
  lt := fun ⟨_, hs, _⟩ => nomatch hs
  names := nofun

end Hub

end GatewayClient
