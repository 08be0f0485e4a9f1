import GatewayClient.Proofs.Delivery.Ascending
import GatewayClient.Proofs.Delivery.Routing

/-!
# Chains of stages

Deriving one stage behind the other makes a chain: a row of stages of one policy, where each but the
last has the next as its only sink. The last is open; what is behind it is up to the graph. A hub
contains a chain (`Hub.Contains`) if besides the chain is entered at its beginning only, from stages
of its policy.

Consumers can append to the last stage and to all stages outside, but a consumer that appends to a
stage inside, or links or feeds a stage of the chain, breaks it up. Consumers that spare the chain
(`Act.Spares`) keep it (`unbroken_intact`).
-/

namespace GatewayClient

/-- A row of stages of one policy. Each of the inner ones has the next stage as its only sink. -/
structure Chain where
  policy : DeliveryPolicy
  /-- The stages but the last, with their operations. -/
  inner : List (StageId × Operation)
  last : StageId
  /-- The operation of the last stage. -/
  operation : Operation

namespace Chain

/-- The stage with which a row begins. -/
def head (last : StageId) : List (StageId × Operation) → StageId
  | [] => last
  | (id, _) :: _ => id

variable (k : Chain)

def first : StageId := head k.last k.inner

def innerIds : List StageId := k.inner.map (·.1)

def ids : List StageId := k.innerIds ++ [k.last]

def operations : List Operation := k.inner.map (·.2) ++ [k.operation]

/-- The sink is no stage of the chain. -/
def Outside (sink : Sink) : Prop := ∀ id, sink = .stage id → id ∉ k.ids

/-- A sink of a stage of the given policy is no stage of the chain, unless it is the first and the
policy that of the chain. -/
def Admits (policy : DeliveryPolicy) (sink : Sink) : Prop :=
  ∀ id, sink = .stage id → id ∈ k.ids → id = k.first ∧ policy = k.policy

/-- The chain with one more stage at the end. -/
def concat (id : StageId) (operation : Operation) : Chain :=
  ⟨k.policy, k.inner ++ [(k.last, k.operation)], id, operation⟩

variable {k}

theorem innerIds_concat {id : StageId} {operation : Operation} :
    (k.concat id operation).innerIds = k.ids := by
  simp [innerIds, concat, ids]

theorem first_concat {id : StageId} {operation : Operation} :
    (k.concat id operation).first = k.first := by
  obtain ⟨policy, inner, last, o⟩ := k
  cases inner <;> rfl

theorem Outside.admits {sink : Sink} (hout : k.Outside sink) (policy : DeliveryPolicy) :
    k.Admits policy sink :=
  fun id hid hmem => absurd hmem (hout id hid)

theorem outside_consumer (c : Consumer) : k.Outside (.consumer c) := nofun

theorem outside_stage {id : StageId} (hid : id ∉ k.ids) : k.Outside (.stage id) := by
  rintro _ ⟨⟩
  exact hid

theorem innerIds_subset {id : StageId} (hid : id ∈ k.innerIds) : id ∈ k.ids :=
  List.mem_append_left _ hid

theorem last_mem : k.last ∈ k.ids := List.mem_append_right _ (List.mem_singleton.mpr rfl)

theorem first_mem : k.first ∈ k.ids := by
  obtain ⟨policy, inner, last, operation⟩ := k
  cases inner with
  | nil => exact last_mem
  | cons s rest => exact List.mem_cons_self

end Chain

namespace Hub

/-- The stages of a row are in the hub. -/
def Row (h : Hub) (policy : DeliveryPolicy) (last : StageId) (operation : Operation) :
    List (StageId × Operation) → Prop
  | [] => ∃ sinks, h.stages[last]? = some ⟨operation, policy, sinks⟩
  | (id, o) :: rest =>
    h.stages[id]? = some ⟨o, policy, [.stage (Chain.head last rest)]⟩
      ∧ h.Row policy last operation rest

/-- The chain is in the hub, and from outside it is entered at its beginning only. -/
structure Contains (h : Hub) (k : Chain) : Prop where
  row : h.Row k.policy k.last k.operation k.inner
  apart : k.last ∉ k.innerIds
  entered : ∀ {a s}, h.stages[a]? = some s → a ∉ k.innerIds → ∀ sink ∈ s.sinks,
    k.Admits s.policy sink
  unlisted : ∀ c, ∀ sink ∈ h.registry.listenersFor c, k.Outside sink

section

variable {h h' : Hub} {k : Chain}

theorem Row.last {policy : DeliveryPolicy} {last : StageId} {operation : Operation} :
    ∀ {inner : List (StageId × Operation)}, h.Row policy last operation inner →
      ∃ sinks, h.stages[last]? = some ⟨operation, policy, sinks⟩
  | [], hrow => hrow
  | _ :: _, hrow => hrow.2.last

theorem Row.lt_size {policy : DeliveryPolicy} {last : StageId} {operation : Operation} :
    ∀ {inner : List (StageId × Operation)}, h.Row policy last operation inner →
      ∀ id ∈ inner.map (·.1) ++ [last], id < h.stages.size
  | [], ⟨_, hs⟩, _, hid => by
      cases List.mem_singleton.mp hid
      exact (Array.getElem?_eq_some_iff.mp hs).1
  | _ :: _, ⟨hs, hrow⟩, id, hid => by
      rcases List.mem_cons.mp hid with rfl | hid
      · exact (Array.getElem?_eq_some_iff.mp hs).1
      · exact hrow.lt_size id hid

theorem Contains.lt_size (hk : h.Contains k) {id : StageId} (hid : id ∈ k.ids) :
    id < h.stages.size :=
  hk.row.lt_size id hid

theorem Contains.outside_new (hk : h.Contains k) : k.Outside (.stage h.stages.size) :=
  Chain.outside_stage fun hmem => Nat.lt_irrefl _ (hk.lt_size hmem)

theorem Contains.new_notMem (hk : h.Contains k) : h.stages.size ∉ k.innerIds :=
  fun hmem => hk.outside_new _ rfl (Chain.innerIds_subset hmem)

/-! ## A chain stays -/

theorem Row.of_grows (hgrows : h.Grows h') {policy : DeliveryPolicy} {last : StageId}
    {operation : Operation} :
    ∀ {inner : List (StageId × Operation)}, h.Row policy last operation inner →
      (∀ id ∈ inner.map (·.1), h'.sinksOf (.stage id) = h.sinksOf (.stage id)) →
      h'.Row policy last operation inner
  | [], ⟨sinks, hs⟩, _ => by
      obtain ⟨more, hs'⟩ := hgrows _ _ hs
      exact ⟨sinks ++ more, hs'⟩
  | (id, o) :: rest, ⟨hs, hrow⟩, hsinks => by
      refine ⟨?_, hrow.of_grows hgrows fun id hid => hsinks id (List.mem_cons_of_mem _ hid)⟩
      obtain ⟨more, hs'⟩ := hgrows _ _ hs
      have hsame := hsinks id List.mem_cons_self
      simp only [sinksOf, hs, hs'] at hsame
      rw [hs', hsame]

/-- A stage that had sinks has the policy that it had. -/
theorem policy_of_grows (hgrows : h.Grows h') {a : StageId} {s' : Stage}
    (hs' : h'.stages[a]? = some s') {sink : Sink} (hold : sink ∈ h.sinksOf (.stage a)) :
    ∃ s, h.stages[a]? = some s ∧ sink ∈ s.sinks ∧ s'.policy = s.policy := by
  cases hs : h.stages[a]? with
  | none => simp [sinksOf, hs] at hold
  | some s =>
      obtain ⟨_, hgrown⟩ := hgrows _ _ hs
      obtain rfl := Option.some.inj (hs'.symm.trans hgrown)
      exact ⟨s, rfl, by rwa [sinksOf, hs] at hold, rfl⟩

/-- What a hub contains depends on the stages and the listeners alone. -/
theorem Contains.congr (hk : h.Contains k) (hstages : h'.stages = h.stages)
    (hregistry : h'.registry = h.registry) : h'.Contains k where
  row := hk.row.of_grows (grows_of_eq hstages) fun id _ => by simp only [sinksOf, hstages]
  apart := hk.apart
  entered hs := hk.entered (hstages ▸ hs)
  unlisted := hregistry ▸ hk.unlisted

/-- A chain stays if nothing is appended inside and nothing that is appended leads into it. -/
theorem Contains.of_gains {more : Additions} (hk : h.Contains k) (hgrows : h.Grows h')
    (hgains : h.Gains more h')
    (hmore : ∀ m ∈ more, (∀ id ∈ k.innerIds, m.1 ≠ .stage id) ∧ k.Outside m.2) :
    h'.Contains k where
  row := hk.row.of_grows hgrows fun id hid => by
    have hnone : more.to (.stage id) = [] := by
      refine List.map_eq_nil_iff.mpr (List.filter_eq_nil_iff.mpr fun m hm heq => ?_)
      exact (hmore m hm).1 id hid (of_decide_eq_true heq)
    rw [hgains.sinks, hnone, List.append_nil]
  apart := hk.apart
  entered {a s'} hs' ha sink hsink := by
    have hmem : sink ∈ h.sinksOf (.stage a) ++ more.to (.stage a) := by
      rw [← hgains.sinks, sinksOf, hs']
      exact hsink
    rcases List.mem_append.mp hmem with hold | hnew
    · obtain ⟨s, hs, hsink, hpolicy⟩ := policy_of_grows hgrows hs' hold
      rw [hpolicy]
      exact hk.entered hs ha sink hsink
    · obtain ⟨m, hm, rfl⟩ := List.mem_map.mp hnew
      exact (hmore m (List.mem_filter.mp hm).1).2.admits _
  unlisted c sink hsink := by
    have hmem : sink ∈ h.sinksOf (.listeners c) ++ more.to (.listeners c) := by
      rw [← hgains.sinks]
      exact hsink
    rcases List.mem_append.mp hmem with hold | hnew
    · exact hk.unlisted c sink hold
    · obtain ⟨m, hm, rfl⟩ := List.mem_map.mp hnew
      exact (hmore m (List.mem_filter.mp hm).1).2

/-! ## Deriving makes chains -/

/-- Every stage that is a sink is there. -/
def Closed (h : Hub) : Prop := ∀ source id, Sink.stage id ∈ h.sinksOf source → id < h.stages.size

theorem closed_empty : ({} : Hub).Closed := by
  intro source id hsink
  cases source <;> cases hsink

theorem Closed.addStage (hclosed : h.Closed) (operation : Operation) (policy : DeliveryPolicy) :
    (h.addStage operation policy).2.Closed := by
  intro source id hsink
  rw [(addStage_gains operation policy h).sinks] at hsink
  rw [Hub.addStage, Array.size_push]
  exact Nat.lt_succ_of_lt (hclosed source id (by simpa [Additions.to] using hsink))

/-- Nothing leads to the stage that is made next. -/
theorem Closed.fresh (hclosed : h.Closed) (source : Source) :
    Sink.stage h.stages.size ∉ h.sinksOf source :=
  fun hsink => Nat.lt_irrefl _ (hclosed source _ hsink)

theorem Row.concat {policy : DeliveryPolicy} {last new : StageId} {o operation : Operation}
    (hlast : h'.stages[last]? = some ⟨o, policy, [.stage new]⟩)
    (hnew : ∃ sinks, h'.stages[new]? = some ⟨operation, policy, sinks⟩) :
    ∀ {inner : List (StageId × Operation)}, h'.Row policy last o inner →
      h'.Row policy new operation (inner ++ [(last, o)])
  | [], _ => ⟨hlast, hnew⟩
  | (id, o') :: rest, ⟨hs, hrow⟩ => by
      refine ⟨?_, hrow.concat hlast hnew⟩
      rw [hs]
      cases rest <;> rfl

section

variable {parent : StageId} {s : Stage} (hs : h.stages[parent]? = some s) (operation : Operation)
include hs

theorem parent_derive : (h.derive parent operation).2.stages[parent]? =
    some (s.append (.stage h.stages.size)) := by
  have hne : parent ≠ h.stages.size := Nat.ne_of_lt (Array.getElem?_eq_some_iff.mp hs).1
  simp [derive, addStage, attach, Array.getElem?_modify, Array.getElem?_push, hs, hne]

theorem child_derive : (h.derive parent operation).2.stages[h.stages.size]? =
    some { operation, policy := s.policy } := by
  have hne : parent ≠ h.stages.size := Nat.ne_of_lt (Array.getElem?_eq_some_iff.mp hs).1
  simp only [derive, addStage, attach, hs, Array.getElem?_modify, if_neg hne,
    Array.getElem?_push_size]
  rfl

theorem mem_sinksOf_derive {source : Source} {sink : Sink}
    (hsink : sink ∈ (h.derive parent operation).2.sinksOf source) :
    sink ∈ h.sinksOf source ∨ source = .stage parent ∧ sink = .stage h.stages.size := by
  have hlt := (Array.getElem?_eq_some_iff.mp hs).1
  rw [(derive_gains parent operation h).sinks, derived, if_pos (Nat.le_of_lt hlt)] at hsink
  refine (List.mem_append.mp hsink).imp_right fun hnew => ?_
  obtain ⟨m, hm, rfl⟩ := List.mem_map.mp hnew
  obtain ⟨hm, hsource⟩ := List.mem_filter.mp hm
  rw [List.mem_singleton.mp hm] at hsource ⊢
  exact ⟨(of_decide_eq_true hsource).symm, rfl⟩

theorem Closed.derive (hclosed : h.Closed) : (h.derive parent operation).2.Closed := by
  intro source id hsink
  rw [size_derive]
  rcases mem_sinksOf_derive hs operation hsink with hold | ⟨-, heq⟩
  · exact Nat.lt_succ_of_lt (hclosed source id hold)
  · cases heq
    exact Nat.lt_succ_self _

/-- A stage that is derived is a chain, with the policy of its parent. -/
theorem contains_derive (hclosed : h.Closed) :
    (h.derive parent operation).2.Contains ⟨s.policy, [], h.stages.size, operation⟩ where
  row := ⟨[], child_derive hs operation⟩
  apart := List.not_mem_nil
  entered {a s'} hs' _ sink hsink := by
    rintro id rfl hid
    obtain rfl := List.mem_singleton.mp hid
    have hmem : Sink.stage h.stages.size ∈ (h.derive parent operation).2.sinksOf (.stage a) := by
      rwa [sinksOf, hs']
    rcases mem_sinksOf_derive hs operation hmem with hold | ⟨heq, -⟩
    · exact absurd hold (hclosed.fresh _)
    · cases heq
      rw [parent_derive hs] at hs'
      cases hs'
      exact ⟨rfl, rfl⟩
  unlisted c sink hsink := by
    rintro id rfl hid
    obtain rfl := List.mem_singleton.mp hid
    exact hclosed.fresh (.listeners c) hsink

end

/-- A stage that is derived behind the last one, as its first sink, makes a chain longer. -/
theorem Contains.longer (hk : h.Contains k) (hclosed : h.Closed)
    (hopen : h.stages[k.last]? = some ⟨k.operation, k.policy, []⟩) (operation : Operation) :
    (h.derive k.last operation).2.Contains (k.concat h.stages.size operation) where
  row := by
    refine Row.concat (parent_derive hopen operation) ⟨[], child_derive hopen operation⟩
      (hk.row.of_grows (derive_grows _ operation h) fun id hid => ?_)
    have hne : k.last ≠ id := by
      rintro rfl
      exact hk.apart hid
    rw [(derive_gains k.last operation h).sinks]
    unfold derived
    split <;> simp [Additions.to, hne]
  apart := by
    rw [Chain.innerIds_concat]
    exact hk.outside_new _ rfl
  entered {a s'} hs' ha sink hsink := by
    rw [Chain.innerIds_concat] at ha
    rintro id rfl hid
    have hmem : Sink.stage id ∈ (h.derive k.last operation).2.sinksOf (.stage a) := by
      rwa [sinksOf, hs']
    rcases mem_sinksOf_derive hopen operation hmem with hold | ⟨heq, -⟩
    · rw [Chain.ids, Chain.innerIds_concat] at hid
      rcases List.mem_append.mp hid with hid | hid
      · obtain ⟨s, hs, hsink, hpolicy⟩ := policy_of_grows (derive_grows _ operation h) hs' hold
        rw [Chain.first_concat, hpolicy]
        exact hk.entered hs (fun hmem => ha (Chain.innerIds_subset hmem)) _ hsink id rfl hid
      · obtain rfl := List.mem_singleton.mp hid
        exact absurd hold (hclosed.fresh _)
    · cases heq
      exact absurd Chain.last_mem ha
  unlisted c sink hsink := by
    rintro id rfl hid
    rw [Chain.ids, Chain.innerIds_concat] at hid
    have hold : Sink.stage id ∈ h.sinksOf (.listeners c) := hsink
    rcases List.mem_append.mp hid with hid | hid
    · exact hk.unlisted c _ hold id rfl hid
    · obtain rfl := List.mem_singleton.mp hid
      exact hclosed.fresh _ hold

end

end Hub

/-! ## Consumers that spare a chain -/

/-- The stage that an act gives is none of some. -/
def StageRef.Avoids (names : List (String × StageId)) (ids : List StageId) : StageRef → Prop
  | .named name => ∀ n ∈ names, n.1 = name → n.2 ∉ ids
  | .numbered id => id ∉ ids

/-- The act appends nothing inside the chain, and neither links nor feeds a stage of it. -/
def Act.Spares (names : List (String × StageId)) (k : Chain) : Act → Prop
  | .addConsumer stage .. | .addConsumerOnce stage .. | .addBranch stage .. | .addStage stage _ =>
    stage.Avoids names k.innerIds
  | .attach stage child => stage.Avoids names k.innerIds ∧ child.Avoids names k.ids
  | .feed stage _ => stage.Avoids names k.ids
  | .breakOff _ | .register .. | .dispatch _ => True

namespace Hub

section

variable {h h' : Hub} {k : Chain}

theorem notMem_of_locate? {stage : StageRef} {ids : List StageId} {id : StageId}
    (havoids : stage.Avoids h.names ids) (hid : h.locate? stage = .ok id) : id ∉ ids := by
  cases stage with
  | named name =>
      rw [locate?, find?] at hid
      split at hid
      · next n hn =>
        cases hid
        have hname := List.find?_some hn
        exact havoids n (List.mem_of_find?_eq_some hn) (of_decide_eq_true hname)
      · cases hid
  | numbered n =>
      rw [locate?] at hid
      split at hid
      · cases hid
        exact havoids
      · cases hid

theorem spares_of_mem_attached {id : StageId} {sink : Sink} (hid : id ∉ k.innerIds)
    (hsink : k.Outside sink) {m : Source × Sink} (hm : m ∈ h.attached id sink) :
    (∀ id ∈ k.innerIds, m.1 ≠ .stage id) ∧ k.Outside m.2 := by
  unfold attached at hm
  split at hm
  · rw [List.mem_singleton.mp hm]
    refine ⟨?_, hsink⟩
    rintro id' hid' ⟨⟩
    exact hid hid'
  · cases hm

theorem spares_of_mem_derived (hk : h.Contains k) {parent : StageId} (hparent : parent ∉ k.innerIds)
    {m : Source × Sink} (hm : m ∈ h.derived parent) :
    (∀ id ∈ k.innerIds, m.1 ≠ .stage id) ∧ k.Outside m.2 := by
  unfold derived at hm
  split at hm
  · rw [List.mem_singleton.mp hm]
    refine ⟨?_, hk.outside_new⟩
    rintro id hid ⟨⟩
    exact hparent hid
  · cases hm

theorem Contains.consume (hk : h.Contains k) {id : StageId} (hid : id ∉ k.innerIds) (name : String)
    (reaction : Reaction) : (h.consume id name reaction).Contains k :=
  hk.of_gains (consume_grows id name reaction h) (consume_gains id name reaction h)
    fun _ => spares_of_mem_attached hid (Chain.outside_consumer _)

/-- What an act that spares the chain appends is not inside and does not lead into it. -/
theorem spares_of_mem_appends (hk : h.Contains k) {c : Consumer} {a : Act}
    (ha : a.Spares h.names k) {m : Source × Sink} (hm : m ∈ a.appends c h) :
    (∀ id ∈ k.innerIds, m.1 ≠ .stage id) ∧ k.Outside m.2 := by
  cases a with
  | addConsumer stage name reaction =>
      obtain ⟨id, hid, hm⟩ := mem_wherever hm
      exact spares_of_mem_attached (notMem_of_locate? ha hid) (Chain.outside_consumer _) hm
  | addConsumerOnce stage name reaction =>
      rw [Act.appends] at hm
      split at hm
      · cases hm
      · obtain ⟨id, hid, hm⟩ := mem_wherever hm
        exact spares_of_mem_attached (notMem_of_locate? ha hid) (Chain.outside_consumer _) hm
  | addBranch stage operation name reaction =>
      obtain ⟨id, hid, hm⟩ := mem_wherever hm
      rcases List.mem_append.mp hm with hm | hm
      · exact spares_of_mem_derived hk (notMem_of_locate? ha hid) hm
      · exact spares_of_mem_attached hk.new_notMem (Chain.outside_consumer _) hm
  | addStage stage operation =>
      obtain ⟨id, hid, hm⟩ := mem_wherever hm
      exact spares_of_mem_derived hk (notMem_of_locate? ha hid) hm
  | attach stage child =>
      obtain ⟨id, hid, hm⟩ := mem_wherever hm
      obtain ⟨c, hc, hm⟩ := mem_wherever hm
      exact spares_of_mem_attached (notMem_of_locate? ha.1 hid)
        (Chain.outside_stage (notMem_of_locate? ha.2 hc)) hm
  | register category name reaction =>
      rw [List.mem_singleton.mp hm]
      exact ⟨by simp, Chain.outside_consumer _⟩
  | breakOff f => cases hm
  | feed stage e => cases hm
  | dispatch e => cases hm

/-- An act that emits nothing does not depend on how events are brought. -/
theorem perform_courier (courier courier' : Courier) (c : Consumer) (h : Hub) {a : Act}
    (ha : ¬ a.Emits) : h.perform courier c a = h.perform courier' c a := by
  cases a with
  | feed stage e => exact absurd trivial ha
  | dispatch e => exact absurd trivial ha
  | _ => rfl

/-- The names are as given, and the chain is there. -/
structure Intact (names : List (String × StageId)) (k : Chain) (h : Hub) : Prop where
  names_eq : h.names = names
  contains : h.Contains k

theorem unbroken_intact (names : List (String × StageId)) (k : Chain) :
    Unbroken (Act.Spares names k) (Intact names k) where
  receive hh _ _ := ⟨hh.names_eq, hh.contains.congr rfl rfl⟩
  note hh _ := ⟨hh.names_eq, hh.contains.congr rfl rfl⟩
  act {h} hh a ha hemits courier c := by
    obtain ⟨rfl, hk⟩ := hh
    have hgrows : h.Grows (h.perform courier c a).1 := by
      rw [perform_courier courier (fun _ _ h => (h, .done)) c h hemits]
      exact perform_grows (fun _ _ h => .refl h) c h a
    exact ⟨(perform_enlarges courier c h hemits).names,
      hk.of_gains hgrows (perform_gains courier c h hemits) fun _ => spares_of_mem_appends hk ha⟩

end

end Hub

end GatewayClient
