import GatewayClient.Proofs.Delivery.Chains
import GatewayClient.Proofs.Delivery.Termination

/-!
# Chains can be fused

A chain does the same as one stage with the operations of the chain one after the other. Fusing
happens in place (`Hub.fuse`): the last stage takes over all operations, and what led to the
beginning of the chain leads there, at the same place among the sinks. The inner stages stay behind
and nothing leads to them any more.

A fault inside a chain is contained there under the policy `isolate`, while the one stage breaks off
and leaves it to the emission that brought the event. The two agree once that emission has dealt
with the fault (`settle`), because it has the policy of the chain. `settle_row` walks along the
chain; the rest follows the parts of a delivery (`emit_fuse` to `deliver_fuse`).
-/

namespace GatewayClient

namespace Chain

/-- A sink after the fusion. -/
def reroute (k : Chain) : Sink → Sink
  | .stage id => if id = k.first then .stage k.last else .stage id
  | .consumer c => .consumer c

/-- The operations of a chain in one. -/
def fusion (k : Chain) : Operation := .flatMap fun e => Operation.composed e k.operations

/-- A stage after the fusion. -/
def refit (k : Chain) (id : StageId) (s : Stage) : Stage :=
  if id ∈ k.innerIds then s
  else
    { s with
      operation := if id = k.last then k.fusion else s.operation
      sinks := s.sinks.map k.reroute }

variable {k : Chain}

theorem reroute_first : k.reroute (.stage k.first) = .stage k.last := if_pos rfl

theorem Outside.reroute {sink : Sink} (hout : k.Outside sink) : k.reroute sink = sink := by
  cases sink with
  | consumer c => rfl
  | stage id =>
      have hne : id ≠ k.first := by
        rintro rfl
        exact hout _ rfl first_mem
      exact if_neg hne

theorem refit_append {id : StageId} (hid : id ∉ k.innerIds) (s : Stage) (sink : Sink) :
    k.refit id (s.append sink) = (k.refit id s).append (k.reroute sink) := by
  simp [refit, hid, Stage.append]

end Chain

namespace Hub

/-- The hub with a chain replaced by one stage. -/
def fuse (k : Chain) (h : Hub) : Hub := { h with stages := h.stages.mapIdx k.refit }

/-- What a delivery comes to after the fusion. -/
def fused (k : Chain) (r : Hub × Outcome) : Hub × Outcome := (r.1.fuse k, r.2)

/-! ## What an emission makes of a visit -/

/-- What an emission makes of the end of a visit. -/
def settle (policy : DeliveryPolicy) (r : Hub × Outcome) : Hub × Outcome :=
  match policy, r with
  | .isolate, (h, .fault f) => (h.note (contained f), .done)
  | _, r => r

theorem settle_settle (policy : DeliveryPolicy) (r : Hub × Outcome) :
    settle policy (settle policy r) = settle policy r := by
  obtain ⟨h, o⟩ := r
  cases policy <;> cases o <;> rfl

theorem settle_tooDeep {policy : DeliveryPolicy} {r : Hub × Outcome} :
    (settle policy r).2 = .tooDeep ↔ r.2 = .tooDeep := by
  obtain ⟨h, o⟩ := r
  cases policy <;> cases o <;> simp [settle]

theorem settle_fused (k : Chain) (policy : DeliveryPolicy) (r : Hub × Outcome) :
    settle policy (fused k r) = fused k (settle policy r) := by
  obtain ⟨h, o⟩ := r
  cases policy <;> cases o <;> rfl

theorem emit_cons (courier : Courier) (policy : DeliveryPolicy) (e : GatewayEvent) (sink : Sink)
    (rest : List Sink) (h : Hub) :
    emit courier policy e (sink :: rest) h =
      match settle policy (courier sink e h) with
      | (h, .done) => emit courier policy e rest h
      | broken => broken := by
  rw [emit]
  rcases courier sink e h with ⟨h', o⟩
  cases policy <;> cases o <;> rfl

/-- The visits of an emission that comes to an end do so. -/
theorem visit_ends {courier : Courier} {policy : DeliveryPolicy} {e : GatewayEvent} {sink : Sink}
    {rest : List Sink} {h : Hub} (hends : (emit courier policy e (sink :: rest) h).2 ≠ .tooDeep) :
    (courier sink e h).2 ≠ .tooDeep := by
  intro hdeep
  rw [emit] at hends
  rcases hcall : courier sink e h with ⟨h', o⟩
  rw [hcall] at hends hdeep
  obtain rfl : o = .tooDeep := hdeep
  exact hends rfl

theorem emit_singleton (courier : Courier) (policy : DeliveryPolicy) (e : GatewayEvent)
    (sink : Sink) (h : Hub) :
    emit courier policy e [sink] h = settle policy (courier sink e h) := by
  rw [emit_cons]
  rcases settle policy (courier sink e h) with ⟨h', o⟩
  cases o <;> rfl

/-! ## Along the chain -/

/-- What a stage does with what its operation made of an event. -/
def handOn (courier : Courier) (policy : DeliveryPolicy) (sinks : List Sink) (h : Hub) :
    Except Fault (Option GatewayEvent) → Hub × Outcome
  | .error f => (h, .fault f)
  | .ok none => (h, .done)
  | .ok (some out) => emit courier policy out sinks h

section

variable {courier courier' : Courier} {h : Hub}

theorem pass_eq_handOn {id : StageId} {s : Stage} (hs : h.stages[id]? = some s) (e : GatewayEvent) :
    h.pass courier id e = handOn courier s.policy s.sinks h (s.operation.apply e) := by
  rw [pass, hs]
  dsimp only
  split <;> simp only [handOn, *]

theorem handOn_extends (hext : Extends courier courier') {policy : DeliveryPolicy}
    {sinks : List Sink} {made : Except Fault (Option GatewayEvent)}
    (hends : (handOn courier policy sinks h made).2 ≠ .tooDeep) :
    handOn courier' policy sinks h made = handOn courier policy sinks h made := by
  rcases made with f | _ | out
  · rfl
  · rfl
  · exact emit_extends hext policy out sinks h hends

end

/-- A row of stages does what its operations do one after the other, as far as the emission is
concerned that brings the event. The induction is on the row; each stage has the next as its only
sink, so what it makes of a fault there is made again by the stage before. -/
theorem settle_row (behaviour : Behaviour) {policy : DeliveryPolicy} {last : StageId}
    {operation : Operation} {sinks : List Sink} {h : Hub}
    (hlast : h.stages[last]? = some ⟨operation, policy, sinks⟩) :
    ∀ {inner : List (StageId × Operation)} {depth : Nat} (e : GatewayEvent),
      h.Row policy last operation inner →
      (deliver behaviour (depth + 1) (.stage (Chain.head last inner)) e h).2 ≠ .tooDeep →
      settle policy (deliver behaviour (depth + 1) (.stage (Chain.head last inner)) e h) =
        settle policy (handOn (deliver behaviour depth) policy sinks h
          (Operation.composed e (inner.map (·.2) ++ [operation])))
  | [], depth, e, _, _ => by
      have hcomposed : Operation.composed e [operation] = operation.apply e := by
        rw [Operation.composed]
        split
        · next out hout => exact hout.symm
        · rfl
      rw [List.map_nil, List.nil_append, hcomposed]
      exact congrArg (settle policy) (pass_eq_handOn hlast e)
  | (id, o) :: rest, depth, e, ⟨hs, hrow⟩, hends => by
      have hpass : deliver behaviour (depth + 1) (.stage id) e h =
          handOn (deliver behaviour depth) policy [.stage (Chain.head last rest)] h (o.apply e) :=
        pass_eq_handOn hs e
      rw [Chain.head] at hends ⊢
      rw [hpass] at hends ⊢
      rw [List.map_cons, List.cons_append, Operation.composed]
      rcases hout : o.apply e with f | _ | out
      · rfl
      · rfl
      · rw [hout, handOn, emit_singleton] at hends
        have hends' := fun heq => hends (settle_tooDeep.mpr heq)
        obtain ⟨depth, rfl⟩ : ∃ depth', depth = depth' + 1 := by
          cases depth with
          | zero => exact absurd rfl hends'
          | succ depth => exact ⟨depth, rfl⟩
        have ih := settle_row behaviour hlast out hrow hends'
        have hbelow : (handOn (deliver behaviour depth) policy sinks h
            (Operation.composed out (rest.map (·.2) ++ [operation]))).2 ≠ .tooDeep := fun heq =>
          hends (by rw [ih]; exact settle_tooDeep.mpr heq)
        rw [handOn, emit_singleton, settle_settle, ih]
        dsimp only
        rw [handOn_extends (deliver_extends_succ behaviour depth) hbelow]

/-! ## Building after the fusion -/

section

variable {k : Chain} {h : Hub}

theorem getElem?_fuse (k : Chain) (h : Hub) (id : StageId) :
    (h.fuse k).stages[id]? = h.stages[id]?.map (k.refit id) :=
  Array.getElem?_mapIdx ..

/-- The stage that stands for the chain. -/
theorem last_fuse (hk : h.Contains k) {sinks : List Sink}
    (hlast : h.stages[k.last]? = some ⟨k.operation, k.policy, sinks⟩) :
    (h.fuse k).stages[k.last]? = some ⟨k.fusion, k.policy, sinks.map k.reroute⟩ := by
  rw [getElem?_fuse, hlast]
  simp [Chain.refit, hk.apart]

theorem size_fuse (k : Chain) (h : Hub) : (h.fuse k).stages.size = h.stages.size :=
  Array.size_mapIdx ..

theorem locate?_fuse (k : Chain) (h : Hub) (stage : StageRef) :
    (h.fuse k).locate? stage = h.locate? stage := by
  cases stage with
  | named name => rfl
  | numbered id => rw [locate?, locate?, size_fuse]

theorem fuse_attach {id : StageId} (hid : id ∉ k.innerIds) {sink : Sink} (hsink : k.Outside sink) :
    (h.attach id sink).fuse k = (h.fuse k).attach id sink := by
  have hstages : ((h.stages.modify id (·.append sink)).mapIdx k.refit) =
      (h.stages.mapIdx k.refit).modify id (·.append sink) := by
    refine Array.ext_getElem? fun i => ?_
    simp only [Array.getElem?_mapIdx, Array.getElem?_modify]
    split
    · next heq =>
      subst heq
      cases h.stages[id]? with
      | none => rfl
      | some s => simp [Chain.refit_append hid, hsink.reroute]
    · rfl
  simp only [fuse, attach, hstages]

theorem fuse_addStage (hk : h.Contains k) (operation : Operation) (policy : DeliveryPolicy) :
    (h.addStage operation policy).2.fuse k = ((h.fuse k).addStage operation policy).2 := by
  have hlast : h.stages.size ≠ k.last := fun heq => hk.outside_new _ rfl (heq ▸ Chain.last_mem)
  have hrefit : k.refit h.stages.size { operation, policy } = { operation, policy } := by
    simp [Chain.refit, hk.new_notMem, hlast]
  simp only [fuse, addStage, Array.mapIdx_push, hrefit]

theorem fuse_derive (hk : h.Contains k) {parent : StageId} (hparent : parent ∉ k.innerIds)
    (operation : Operation) :
    (h.derive parent operation).2.fuse k = ((h.fuse k).derive parent operation).2 := by
  have hpolicy : (h.fuse k).stages[parent]?.map (·.policy) = h.stages[parent]?.map (·.policy) := by
    rw [getElem?_fuse, Option.map_map]
    congr 1
    funext s
    simp only [Function.comp, Chain.refit]
    split <;> rfl
  rw [derive, derive, hpolicy]
  simp only [addStage, size_fuse]
  rw [fuse_attach hparent hk.outside_new]
  exact congrArg (attach parent _) (fuse_addStage hk operation _)

theorem fuse_consume {id : StageId} (hid : id ∉ k.innerIds) (name : String) (reaction : Reaction) :
    (h.consume id name reaction).fuse k = (h.fuse k).consume id name reaction :=
  fuse_attach hid (Chain.outside_consumer (h.addConsumer name reaction).1)

theorem fuse_branch (hk : h.Contains k) {parent : StageId} (hparent : parent ∉ k.innerIds)
    (operation : Operation) (name : String) (reaction : Reaction) :
    ((h.derive parent operation).2.consume (h.derive parent operation).1 name reaction).fuse k =
      ((h.fuse k).derive parent operation).2.consume ((h.fuse k).derive parent operation).1 name
        reaction := by
  have hchild : ((h.fuse k).derive parent operation).1 = (h.derive parent operation).1 :=
    size_fuse k h
  have hnew : (h.derive parent operation).1 ∉ k.innerIds := hk.new_notMem
  rw [hchild, fuse_consume hnew, fuse_derive hk hparent]

theorem atStage_fuse {h' : Hub} {stage : StageRef} {next next' : StageId → Hub × Outcome}
    (hsame : h'.names = h.names ∧ h'.stages = h.stages)
    (hnext : ∀ id, h.locate? stage = .ok id → next' id = fused k (next id)) :
    (h'.fuse k).atStage stage next' = fused k (h'.atStage stage next) := by
  have hlocate : h'.locate? stage = h.locate? stage := by
    cases stage <;> simp [locate?, find?, hsame]
  rw [atStage, atStage, locate?_fuse, hlocate]
  split
  · rfl
  · next id hid => exact hnext id hid

end

/-! ## Delivering after the fusion -/

/-- What consumers do does not depend on the stages. -/
def Blind (behaviour : Behaviour) : Prop :=
  ∀ c e (h : Hub) stages, behaviour c e { h with stages } = behaviour c e h

theorem settle_keeps {inv : Hub → Prop} (hnote : ∀ {h}, inv h → ∀ f, inv (h.note (contained f)))
    {policy : DeliveryPolicy} {r : Hub × Outcome} (hr : inv r.1) : inv (settle policy r).1 := by
  obtain ⟨h, o⟩ := r
  cases policy with
  | failFast => exact hr
  | isolate =>
      cases o with
      | fault f => exact hnote hr f
      | _ => exact hr

section

variable {names : List (String × StageId)} {k : Chain} {kind : Consumer → Prop}

/-- After the fusion the second courier comes to what the first one comes to before. -/
def Simulates (names : List (String × StageId)) (k : Chain) (kind : Consumer → Prop)
    (courier courier' : Courier) : Prop :=
  ∀ policy sink e h, k.Admits policy sink → sink.OfKind kind → h.Only kind → Intact names k h →
    (courier sink e h).2 ≠ .tooDeep →
    settle policy (courier' (k.reroute sink) e (h.fuse k)) =
      fused k (settle policy (courier sink e h))

section

variable {courier courier' : Courier} (hkeeps : KeepsConfined kind (Intact names k) courier)
  (hsim : Simulates names k kind courier courier')
include hkeeps hsim

theorem emit_fuse (policy : DeliveryPolicy) (e : GatewayEvent) :
    ∀ (sinks : List Sink) (h : Hub), (∀ sink ∈ sinks, k.Admits policy sink ∧ sink.OfKind kind) →
      h.Only kind → Intact names k h → (emit courier policy e sinks h).2 ≠ .tooDeep →
      emit courier' policy e (sinks.map k.reroute) (h.fuse k) =
        fused k (emit courier policy e sinks h)
  | [], _, _, _, _, _ => rfl
  | sink :: rest, h, hsinks, honly, hh, hends => by
      obtain ⟨hadmits, hkind⟩ := hsinks sink List.mem_cons_self
      obtain ⟨honly₁, hh₁⟩ := hkeeps sink e h hkind honly hh
      have honly' : (settle policy (courier sink e h)).1.Only kind :=
        settle_keeps (fun hh _ => hh) honly₁
      have hh' : Intact names k (settle policy (courier sink e h)).1 :=
        settle_keeps (unbroken_intact names k).note hh₁
      have hvisit := visit_ends hends
      have hcall := hsim policy sink e h hadmits hkind honly hh
      rw [emit_cons] at hends
      rw [List.map_cons, emit_cons, emit_cons]
      rw [hcall hvisit]
      rcases hr : settle policy (courier sink e h) with ⟨h₁, o⟩
      rw [hr] at hends honly' hh'
      cases o with
      | done =>
          exact emit_fuse policy e rest h₁ (fun s hs => hsinks s (List.mem_cons_of_mem _ hs))
            honly' hh' hends
      | fault f => rfl
      | tooDeep => rfl

theorem handOn_fuse {policy : DeliveryPolicy} {sinks : List Sink} {h : Hub}
    {made : Except Fault (Option GatewayEvent)}
    (hsinks : ∀ sink ∈ sinks, k.Admits policy sink ∧ sink.OfKind kind) (honly : h.Only kind)
    (hh : Intact names k h) (hends : (handOn courier policy sinks h made).2 ≠ .tooDeep) :
    handOn courier' policy (sinks.map k.reroute) (h.fuse k) made =
      fused k (handOn courier policy sinks h made) := by
  rcases made with f | _ | out
  · rfl
  · rfl
  · exact emit_fuse hkeeps hsim policy out sinks h hsinks honly hh hends

/-- A stage outside the chain does what it did. -/
theorem pass_fuse {id : StageId} (hid : id ∉ k.ids) (e : GatewayEvent) {h : Hub}
    (honly : h.Only kind) (hh : Intact names k h) (hends : (h.pass courier id e).2 ≠ .tooDeep) :
    (h.fuse k).pass courier' id e = fused k (h.pass courier id e) := by
  have hinner : id ∉ k.innerIds := fun hmem => hid (Chain.innerIds_subset hmem)
  have hlast : id ≠ k.last := by
    rintro rfl
    exact hid Chain.last_mem
  cases hs : h.stages[id]? with
  | none =>
      rw [pass, pass, getElem?_fuse, hs]
      rfl
  | some s =>
      have hs' : (h.fuse k).stages[id]? = some { s with sinks := s.sinks.map k.reroute } := by
        rw [getElem?_fuse, hs]
        simp [Chain.refit, hinner, hlast]
      have hsinks : ∀ sink ∈ s.sinks, k.Admits s.policy sink ∧ sink.OfKind kind :=
        fun sink hsink => ⟨hh.contains.entered hs hinner sink hsink,
          honly (.stage id) sink (by rwa [sinksOf, hs])⟩
      rw [pass_eq_handOn hs] at hends ⊢
      rw [pass_eq_handOn hs']
      exact handOn_fuse hkeeps hsim hsinks honly hh hends

theorem announce_fuse (e : GatewayEvent) {h : Hub} (honly : h.Only kind) (hh : Intact names k h)
    (hends : (h.announce courier e).2 ≠ .tooDeep) :
    (h.fuse k).announce courier' e = fused k (h.announce courier e) := by
  have hout := hh.contains.unlisted e.category
  have hsame : (h.registry.listenersFor e.category).map k.reroute =
      h.registry.listenersFor e.category :=
    (List.map_congr_left fun sink hsink => (hout sink hsink).reroute).trans (List.map_id' _)
  have hemission := emit_fuse hkeeps hsim .failFast e (h.registry.listenersFor e.category) h
    (fun sink hsink => ⟨(hout sink hsink).admits _, honly (.listeners e.category) sink hsink⟩)
    honly hh hends
  rwa [hsame] at hemission

theorem perform_fuse (c : Consumer) {h : Hub} (honly : h.Only kind) (hh : Intact names k h)
    {a : Act} (ha : a.Spares names k) (hends : (h.perform courier c a).2 ≠ .tooDeep) :
    (h.fuse k).perform courier' c a = fused k (h.perform courier c a) := by
  obtain ⟨rfl, hk⟩ := hh
  have hsame : h.names = h.names ∧ h.stages = h.stages := ⟨rfl, rfl⟩
  cases a with
  | breakOff f => rfl
  | addConsumer stage name reaction =>
      exact atStage_fuse hsame fun id hid =>
        congrArg acted (fuse_consume (notMem_of_locate? ha hid) name reaction).symm
  | addConsumerOnce stage name reaction =>
      rw [perform, perform]
      change (if c.id ∈ h.spent then _ else _) = fused k (if c.id ∈ h.spent then _ else _)
      split
      · rfl
      · let spent : Hub := { h with spent := c.id :: h.spent }
        have hconsume : ∀ id, id ∉ k.innerIds →
            (spent.fuse k).consume id name reaction = (spent.consume id name reaction).fuse k :=
          fun id hid => (fuse_consume hid name reaction).symm
        exact @atStage_fuse k h spent stage _ _ hsame fun id hid =>
          congrArg acted (hconsume id (notMem_of_locate? ha hid))
  | addBranch stage operation name reaction =>
      exact atStage_fuse hsame fun id hid =>
        congrArg acted (fuse_branch hk (notMem_of_locate? ha hid) operation name reaction).symm
  | addStage stage operation =>
      exact atStage_fuse hsame fun id hid =>
        congrArg acted (fuse_derive hk (notMem_of_locate? ha hid) operation).symm
  | attach stage child =>
      exact atStage_fuse hsame fun id hid => atStage_fuse hsame fun c hc =>
        congrArg acted (fuse_attach (notMem_of_locate? ha.1 hid)
          (Chain.outside_stage (notMem_of_locate? ha.2 hc))).symm
  | feed stage e =>
      refine atStage_fuse hsame fun id hid =>
        pass_fuse hkeeps hsim (notMem_of_locate? ha hid) e honly ⟨rfl, hk⟩ ?_
      rwa [perform, atStage, hid] at hends
  | register category name reaction => rfl
  | dispatch e => exact announce_fuse hkeeps hsim e honly ⟨rfl, hk⟩ hends

variable {behaviour : Behaviour} (hconfined : Confined behaviour (Act.Spares names k) kind)
include hconfined

theorem performAll_fuse {c : Consumer} (hc : kind c) {e : GatewayEvent} {h₀ : Hub} :
    ∀ (acts : List Act) (h : Hub), acts ⊆ behaviour c e h₀ → h.Only kind → Intact names k h →
      (performAll courier c acts h).2 ≠ .tooDeep →
      performAll courier' c acts (h.fuse k) = fused k (performAll courier c acts h)
  | [], _, _, _, _, _ => rfl
  | a :: rest, h, hacts, honly, hh, hends => by
      obtain ⟨ha, hrest⟩ := List.cons_subset.mp hacts
      have hspares := hconfined.acts hc e h₀ a ha
      obtain ⟨honly₁, hh₁⟩ :=
        perform_keeps_confined (unbroken_intact names k) hkeeps hconfined hc ha honly hh
      have hfirst := perform_fuse hkeeps hsim c honly hh hspares
      rw [performAll] at hends
      rw [performAll, performAll]
      rcases hact : h.perform courier c a with ⟨h₁, o⟩
      rw [hact] at hends honly₁ hh₁ hfirst
      cases o with
      | tooDeep => exact absurd rfl hends
      | fault f => rw [hfirst (by simp)]; rfl
      | done =>
          rw [hfirst (by simp)]
          exact performAll_fuse hc rest h₁ hrest honly₁ hh₁ hends

end

variable {behaviour : Behaviour} (hconfined : Confined behaviour (Act.Spares names k) kind)
include hconfined

/-- An event that comes to the beginning of the chain. `settle_row` leads to the sinks of the last
stage, and these are served as the one stage serves them. -/
theorem first_fuse {depth : Nat}
    (hsim : Simulates names k kind (deliver behaviour depth) (deliver behaviour depth))
    (e : GatewayEvent) {h : Hub} (honly : h.Only kind) (hh : Intact names k h)
    (hends : (deliver behaviour (depth + 1) (.stage k.first) e h).2 ≠ .tooDeep) :
    settle k.policy (deliver behaviour (depth + 1) (.stage k.last) e (h.fuse k)) =
      fused k (settle k.policy (deliver behaviour (depth + 1) (.stage k.first) e h)) := by
  have hkeeps := deliver_keeps_confined hconfined (unbroken_intact names k) depth
  obtain ⟨sinks, hlast⟩ := hh.contains.row.last
  have hsinks : ∀ sink ∈ sinks, k.Admits k.policy sink ∧ sink.OfKind kind := fun sink hsink =>
    ⟨hh.contains.entered hlast hh.contains.apart sink hsink,
      honly (.stage k.last) sink (by rwa [sinksOf, hlast])⟩
  have hrow := settle_row behaviour hlast e hh.contains.row hends
  have hmade : (handOn (deliver behaviour depth) k.policy sinks h
      (Operation.composed e k.operations)).2 ≠ .tooDeep := fun heq =>
    hends (settle_tooDeep.mp (hrow ▸ settle_tooDeep.mpr heq))
  calc settle k.policy (deliver behaviour (depth + 1) (.stage k.last) e (h.fuse k))
      = settle k.policy (handOn (deliver behaviour depth) k.policy (sinks.map k.reroute) (h.fuse k)
          (Operation.composed e k.operations)) :=
        congrArg (settle k.policy) (pass_eq_handOn (last_fuse hh.contains hlast) e)
    _ = fused k (settle k.policy (handOn (deliver behaviour depth) k.policy sinks h
          (Operation.composed e k.operations))) := by
        rw [handOn_fuse hkeeps hsim hsinks honly hh hmade, settle_fused]
    _ = fused k (settle k.policy (deliver behaviour (depth + 1) (.stage k.first) e h)) :=
        congrArg (fused k) hrow.symm

variable (hblind : Blind behaviour)
include hblind

/-- **A delivery comes to the same after the fusion.** The induction is on the depth. -/
theorem deliver_fuse :
    ∀ depth, Simulates names k kind (deliver behaviour depth) (deliver behaviour depth)
  | 0 => fun _ _ _ _ _ _ _ _ hends => absurd rfl hends
  | depth + 1 => by
      intro policy sink e h hadmits hkind honly hh hends
      have ih := deliver_fuse depth
      have hkeeps := deliver_keeps_confined hconfined (unbroken_intact names k) depth
      cases sink with
      | consumer c =>
          have hblind' : behaviour c e ((h.receive c.name e).fuse k) =
              behaviour c e (h.receive c.name e) := hblind c e _ _
          have hall := performAll_fuse hkeeps ih hconfined hkind _ (h.receive c.name e)
            (List.Subset.refl _) honly ((unbroken_intact names k).receive hh c.name e) hends
          rw [← settle_fused]
          refine congrArg (settle policy) (Eq.trans ?_ hall)
          change performAll _ c (behaviour c e ((h.receive c.name e).fuse k)) _ = _
          rw [hblind']
          rfl
      | stage id =>
          by_cases hid : id ∈ k.ids
          · obtain ⟨rfl, rfl⟩ := hadmits id rfl hid
            rw [Chain.reroute_first]
            exact first_fuse hconfined ih e honly hh hends
          · have hout : k.Outside (.stage id) := Chain.outside_stage hid
            rw [hout.reroute, ← settle_fused]
            exact congrArg (settle policy) (pass_fuse hkeeps ih hid e honly hh hends)

theorem accept_fuse {id : StageId} (hid : id ∉ k.ids) (e : GatewayEvent) {h : Hub}
    (honly : h.Only kind) (hh : Intact names k h)
    (hends : (h.accept behaviour id e).2 ≠ .tooDeep) :
    (h.fuse k).accept behaviour id e = fused k (h.accept behaviour id e) := by
  have hkeeps := deliver_keeps_confined hconfined (unbroken_intact names k) h.depthLimit
  rw [accept, depthLimit, size_fuse]
  exact pass_fuse hkeeps (deliver_fuse hconfined hblind h.depthLimit) hid e honly hh hends

end

/-! ## Feeding one event after the other -/

/-- Feeds events to stages one after the other, however each of the deliveries ends. -/
def feedEach (behaviour : Behaviour) : List (StageId × GatewayEvent) → Hub → Hub × List Outcome
  | [], h => (h, [])
  | (id, e) :: rest, h =>
    let first := h.accept behaviour id e
    let others := feedEach behaviour rest first.1
    (others.1, first.2 :: others.2)

theorem feedEach_fuse {names : List (String × StageId)} {k : Chain} {kind : Consumer → Prop}
    {behaviour : Behaviour} (hconfined : Confined behaviour (Act.Spares names k) kind)
    (hblind : Blind behaviour) :
    ∀ (feeds : List (StageId × GatewayEvent)) {h : Hub}, (∀ f ∈ feeds, f.1 ∉ k.ids) →
      h.Only kind → Intact names k h → .tooDeep ∉ (h.feedEach behaviour feeds).2 →
      (h.fuse k).feedEach behaviour feeds =
        ((h.feedEach behaviour feeds).1.fuse k, (h.feedEach behaviour feeds).2)
  | [], _, _, _, _, _ => rfl
  | (id, e) :: rest, h, hfeeds, honly, hh, hends => by
      obtain ⟨hfirst, hrest⟩ := List.forall_mem_cons.mp hfeeds
      obtain ⟨honly₁, hh₁⟩ := accept_keeps_confined hconfined (unbroken_intact names k) id e honly hh
      rw [feedEach, List.mem_cons, not_or] at hends
      have haccept := accept_fuse hconfined hblind hfirst e honly hh (Ne.symm hends.1)
      have hothers := feedEach_fuse hconfined hblind rest hrest honly₁ hh₁ hends.2
      simp only [feedEach, haccept, fused]
      rw [hothers]

/-- Where there are no cycles and consumers only append, every delivery comes to an end. -/
theorem feedEach_ends {kind : Consumer → Prop} {behaviour : Behaviour}
    (hconfined : Confined behaviour Act.Plain kind) :
    ∀ (feeds : List (StageId × GatewayEvent)) {h : Hub}, h.Acyclic → h.Only kind →
      .tooDeep ∉ (h.feedEach behaviour feeds).2
  | [], _, _, _ => List.not_mem_nil
  | (id, e) :: rest, h, hacyclic, honly => by
      obtain ⟨honly₁, hsame⟩ :=
        accept_keeps_confined hconfined (unbroken_sameLinks h) id e honly (.refl h)
      rw [feedEach, List.mem_cons, not_or]
      exact ⟨(accept_comes_to_end hacyclic hconfined honly id e).symm,
        feedEach_ends hconfined rest (hsame.acyclic hacyclic) honly₁⟩

/-- After the fusion nothing leads from outside to the inner stages. -/
theorem Contains.inner_unreached {k : Chain} {h : Hub} (hk : h.Contains k) {a b : StageId}
    (hlink : (h.fuse k).Link a b) (hb : b ∈ k.innerIds) : a ∈ k.innerIds := by
  by_contra ha
  obtain ⟨s', hs', hmem⟩ := hlink
  rw [getElem?_fuse] at hs'
  obtain ⟨s, hs, rfl⟩ := Option.map_eq_some_iff.mp hs'
  rw [Chain.refit, if_neg ha] at hmem
  obtain ⟨sink, hsink, hreroute⟩ := List.mem_map.mp hmem
  cases sink with
  | consumer c => cases hreroute
  | stage id =>
      rw [Chain.reroute] at hreroute
      split at hreroute
      · cases hreroute
        exact hk.apart hb
      · next hne =>
        cases hreroute
        exact hne (hk.entered hs ha _ hsink b rfl (Chain.innerIds_subset hb)).1

end Hub

/-! ## The steps of a presence filter -/

/-- A way to carry an event that may be missing by an event, which stages can hand on. -/
structure Carrier where
  wrap : Option GatewayEvent → GatewayEvent
  present : GatewayEvent → Bool
  unwrap : GatewayEvent → Except Fault GatewayEvent
  present_wrap : ∀ x, present (wrap x) = x.isSome
  unwrap_wrap : ∀ e, unwrap (wrap (some e)) = .ok e

namespace Carrier

section

variable (carrier : Carrier) (f : GatewayEvent → Except Fault (Option GatewayEvent))

def making : Operation := .map fun e => (f e).map carrier.wrap

def keepingPresent : Operation := .filter fun e => .ok (carrier.present e)

def unwrapping : Operation := .map carrier.unwrap

/-- Making an event that may be missing, dropping it if it is, and unwrapping it. -/
def steps : List Operation := [carrier.making f, carrier.keepingPresent, carrier.unwrapping]

theorem composed_steps (e : GatewayEvent) : Operation.composed e (carrier.steps f) = f e := by
  rw [steps, Operation.composed, making, Operation.apply]
  rcases f e with fault | _ | out
  · rfl
  · simp [Except.map, Operation.composed, Operation.apply, keepingPresent, carrier.present_wrap]
  · simp [Except.map, Operation.composed, Operation.apply, keepingPresent, unwrapping,
      carrier.present_wrap, carrier.unwrap_wrap]

end

/-- An event that is there is carried by one with its payload in a list. -/
def boxed : Carrier where
  wrap
    | some e => { e with payload := .arr [e.payload] }
    | none => ⟨.resume, 0, .null⟩
  present e :=
    match e.payload with
    | .arr _ => true
    | _ => false
  unwrap e :=
    match e.payload with
    | .arr [payload] => .ok { e with payload }
    | _ => .error .wordless
  present_wrap x := by cases x <;> rfl
  unwrap_wrap _ := rfl

end Carrier

namespace Hub

/-- **A chain does the same as one stage with all its operations.** If consumers spare the chain and
do not look at stages, then however events are fed outside the chain, under either policy of the
chain and whatever its operations break off on, after the fusion everything is received that was
received before, each delivery ends as it did, with the same fault if with one, and the same is
logged; provided that the deliveries end at all, as they do without cycles when consumers only
append. The one stage has the composition of the operations, and nothing leads to the inner stages
any more. For a map, a presence filter and an unwrapping map it is the flat map itself. -/
theorem chain_fuses {behaviour : Behaviour} {kind : Consumer → Prop} {h : Hub} {k : Chain}
    (hcontains : h.Contains k) (hconfined : Confined behaviour (Act.Spares h.names k) kind)
    (hblind : Blind behaviour) (honly : h.Only kind) {feeds : List (StageId × GatewayEvent)}
    (hfeeds : ∀ f ∈ feeds, f.1 ∉ k.ids) :
    (.tooDeep ∉ (h.feedEach behaviour feeds).2 →
      ((h.fuse k).feedEach behaviour feeds).1.received = (h.feedEach behaviour feeds).1.received
        ∧ ((h.fuse k).feedEach behaviour feeds).2 = (h.feedEach behaviour feeds).2
        ∧ ((h.fuse k).feedEach behaviour feeds).1.journal = (h.feedEach behaviour feeds).1.journal
        ∧ ((h.fuse k).feedEach behaviour feeds).1 = (h.feedEach behaviour feeds).1.fuse k)
      ∧ (h.Acyclic → Confined behaviour Act.Plain kind →
        .tooDeep ∉ (h.feedEach behaviour feeds).2)
      ∧ (∃ sinks, (h.fuse k).stages[k.last]? =
        some ⟨.flatMap fun e => Operation.composed e k.operations, k.policy, sinks⟩)
      ∧ (∀ a b, (h.fuse k).Link a b → b ∈ k.innerIds → a ∈ k.innerIds)
      ∧ ∀ (carrier : Carrier) f, k.operations = carrier.steps f →
        (fun e => Operation.composed e k.operations) = f := by
  refine ⟨fun hends => ?_, fun hacyclic hplain => feedEach_ends hplain feeds hacyclic honly, ?_,
    fun a b => hcontains.inner_unreached, fun carrier f hsteps => ?_⟩
  · rw [feedEach_fuse hconfined hblind feeds hfeeds honly ⟨rfl, hcontains⟩ hends]
    exact ⟨rfl, rfl, rfl, rfl⟩
  · obtain ⟨sinks, hlast⟩ := hcontains.row.last
    exact ⟨sinks.map k.reroute, last_fuse hcontains hlast⟩
  · funext e
    rw [hsteps, carrier.composed_steps]

/-- Raises the number of the shard of an event. Events of one shard are dropped, those of another
break it off. -/
def raising (e : GatewayEvent) : Except Fault (Option GatewayEvent) :=
  if e.shard = 9 then .error (.text "over")
  else .ok (if e.shard = 5 then none else some { e with shard := e.shard + 1 })

def raisingChain (policy : DeliveryPolicy) : Chain where
  policy := policy
  inner := [(1, Carrier.boxed.making raising), (2, Carrier.boxed.keepingPresent)]
  last := 3
  operation := Carrier.boxed.unwrapping

/-- A stage with a chain behind it, a consumer at the end of the chain, and one that the stage
itself serves after the chain. -/
def raisingHub (policy : DeliveryPolicy) : Hub :=
  let h := (Hub.addStage .identity policy {}).2
  let h := (h.derive 0 (Carrier.boxed.making raising)).2
  let h := (h.derive 1 Carrier.boxed.keepingPresent).2
  let h := (h.derive 2 Carrier.boxed.unwrapping).2
  (h.consume 3 "end" .none).consume 0 "side" .none

theorem contains_raisingHub (policy : DeliveryPolicy) :
    (raisingHub policy).Contains (raisingChain policy) := by
  have hroot : (Hub.addStage .identity policy {}).2.stages[0]? = some ⟨.identity, policy, []⟩ := rfl
  have hclosed := closed_empty.addStage .identity policy
  have hclosed₁ := hclosed.derive hroot (Carrier.boxed.making raising)
  have hmade := child_derive hroot (Carrier.boxed.making raising)
  have hclosed₂ := hclosed₁.derive hmade Carrier.boxed.keepingPresent
  have hkept := child_derive hmade Carrier.boxed.keepingPresent
  have hone := contains_derive hroot (Carrier.boxed.making raising) hclosed
  have htwo := hone.longer hclosed₁ hmade Carrier.boxed.keepingPresent
  have hthree := htwo.longer hclosed₂ hkept Carrier.boxed.unwrapping
  have hend : 3 ∉ (raisingChain policy).innerIds := by simp [raisingChain, Chain.innerIds]
  have hside : 0 ∉ (raisingChain policy).innerIds := by simp [raisingChain, Chain.innerIds]
  exact (Contains.consume hthree hend "end" .none).consume hside "side" .none

/-- The consumer at the end of the chain appends another one there whenever it is called. -/
def joining : Behaviour := fun c _ _ =>
  if c.name = "end" then [.addConsumer (.numbered 3) "late" Reaction.none] else []

theorem confined_joining (allowed : Act → Prop)
    (hjoin : allowed (.addConsumer (.numbered 3) "late" Reaction.none)) :
    Confined joining allowed fun _ => True where
  acts := by
    intro c _ e h a ha
    unfold joining at ha
    split at ha
    · rwa [List.mem_singleton.mp ha]
    · cases ha
  newcomers _ _ _ _ _ _ _ _ _ := trivial

/-- The fault of the second event is logged once, and the third one is dropped. -/
theorem chain_fuses_raisingHub :
    let feeds : List (StageId × GatewayEvent) :=
      [(0, ⟨.resume, 0, .null⟩), (0, ⟨.resume, 9, .null⟩), (0, ⟨.resume, 5, .null⟩),
       (0, ⟨.resume, 1, .null⟩)]
    let r := ((raisingHub .isolate).fuse (raisingChain .isolate)).feedEach joining feeds
    (r.1.received.map fun x => (x.consumer, x.event.shard))
        = [("end", 1), ("side", 0), ("side", 9), ("side", 5), ("end", 2), ("late", 2), ("side", 1)]
      ∧ r.2 = [.done, .done, .done, .done]
      ∧ r.1.journal = [contained (.text "over")]
      ∧ (fun e => Operation.composed e (raisingChain .isolate).operations) = raising := by
  intro feeds r
  have hacyclic : (raisingHub .isolate).Acyclic := acyclic_of_ascending (by decide)
  have hspares : Confined joining (Act.Spares (raisingHub .isolate).names (raisingChain .isolate))
      fun _ => True :=
    confined_joining _ (by simp [Act.Spares, StageRef.Avoids, raisingChain, Chain.innerIds])
  have hfeeds : ∀ f ∈ feeds, f.1 ∉ (raisingChain .isolate).ids := by
    simp [feeds, raisingChain, Chain.ids, Chain.innerIds]
  obtain ⟨hsame, hends, -, -, hsteps⟩ := chain_fuses (contains_raisingHub .isolate) hspares
    (fun _ _ _ _ => rfl) (only_any _) hfeeds
  obtain ⟨hreceived, houtcomes, hjournal, -⟩ :=
    hsame (hends hacyclic (confined_joining _ trivial))
  refine ⟨?_, ?_, ?_, hsteps Carrier.boxed raising rfl⟩
  · rw [hreceived]
    rfl
  · rw [houtcomes]
    rfl
  · rw [hjournal]
    rfl

end Hub

end GatewayClient
