import GatewayClient.Proofs.Delivery.Snapshot

/-!
# Bringing an event to given listeners

A session has its listeners in a list of its own, so it serves them like an emission that no source
began: the list is by value. A listener may be a pipeline, though, and what a pipeline hands on goes
to the sinks that it has at that moment, whenever they were appended. `Routed` says both of the
chronicle of one event. That the pipeline still has what it had before, and still does to events
what it did, is because stages only ever gain sinks (`Grows`).
-/

namespace GatewayClient

namespace Hub

/-! ## Stages only gain sinks -/

/-- Every stage is there as it was, perhaps with more sinks at the end. -/
def Grows (h h' : Hub) : Prop :=
  ∀ (id : StageId) (s : Stage), h.stages[id]? = some s →
    ∃ more, h'.stages[id]? = some { s with sinks := s.sinks ++ more }

section

variable {h h' h'' : Hub}

theorem grows_of_eq (hstages : h'.stages = h.stages) : h.Grows h' :=
  fun _ _ hs => ⟨[], by rw [hstages, hs, List.append_nil]⟩

theorem Grows.refl (h : Hub) : h.Grows h := grows_of_eq rfl

theorem Grows.trans (hfirst : h.Grows h') (hsecond : h'.Grows h'') : h.Grows h'' := by
  intro id s hs
  obtain ⟨more, hs'⟩ := hfirst id s hs
  obtain ⟨more', hs''⟩ := hsecond id _ hs'
  exact ⟨more ++ more', by rw [hs'', List.append_assoc]⟩

theorem attach_grows (id : StageId) (sink : Sink) (h : Hub) : h.Grows (h.attach id sink) := by
  intro id' s hs
  by_cases hid : id = id'
  · exact ⟨[sink], by simp [attach, Array.getElem?_modify, hid, hs, Stage.append]⟩
  · exact ⟨[], by simp [attach, Array.getElem?_modify, hid, hs]⟩

theorem addStage_grows (operation : Operation) (policy : DeliveryPolicy) (h : Hub) :
    h.Grows (h.addStage operation policy).2 := by
  intro id s hs
  have hlt := (Array.getElem?_eq_some_iff.mp hs).1
  refine ⟨[], ?_⟩
  rw [addStage, Array.getElem?_push_lt hlt, List.append_nil, ← hs]
  exact (Array.getElem?_eq_getElem hlt).symm

theorem derive_grows (parent : StageId) (operation : Operation) (h : Hub) :
    h.Grows (h.derive parent operation).2 :=
  (addStage_grows operation _ h).trans (attach_grows parent _ _)

theorem consume_grows (id : StageId) (name : String) (reaction : Reaction) (h : Hub) :
    h.Grows (h.consume id name reaction) :=
  (grows_of_eq rfl : h.Grows (h.addConsumer name reaction).2).trans (attach_grows id _ _)

theorem chain_grows (operation : Operation) (n : Nat) (id : StageId) (h : Hub) :
    h.Grows (h.chain operation n id).2 := by
  induction n generalizing id h with
  | zero => exact .refl h
  | succ n ih => exact (derive_grows id operation h).trans (ih _ _)

theorem atStage_grows {stage : StageRef} {next : StageId → Hub × Outcome} (hsame : h.Grows h')
    (hnext : ∀ id, h.Grows (next id).1) : h.Grows (h'.atStage stage next).1 := by
  unfold atStage
  split
  · exact hsame
  · exact hnext _

theorem withStage_grows {name : String} {next : StageId → Hub × HubAnswer}
    (hnext : ∀ id, h.Grows (next id).1) : h.Grows (h.withStage name next).1 := by
  unfold withStage
  split
  · exact .refl h
  · exact hnext _

end

section

variable {courier : Courier} (hcourier : ∀ sink e (h : Hub), h.Grows (courier sink e h).1)
include hcourier

theorem emit_grows (policy : DeliveryPolicy) (e : GatewayEvent) (sinks : List Sink) (h : Hub) :
    h.Grows (emit courier policy e sinks h).1 := by
  induction sinks generalizing h with
  | nil => exact .refl h
  | cons sink rest ih =>
      have hfirst := hcourier sink e h
      unfold emit
      split
      · next h₁ hdone =>
        rw [hdone] at hfirst
        exact hfirst.trans (ih h₁)
      · next hdeep =>
        rw [hdeep] at hfirst
        exact hfirst
      · next h₁ f hfault =>
        rw [hfault] at hfirst
        cases policy with
        | failFast => exact hfirst
        | isolate => exact (hfirst.trans (grows_of_eq rfl)).trans (ih (h₁.note (contained f)))

theorem pass_grows (id : StageId) (e : GatewayEvent) (h : Hub) :
    h.Grows (h.pass courier id e).1 := by
  unfold pass
  split
  · exact .refl h
  · split
    · exact .refl h
    · exact .refl h
    · exact emit_grows hcourier _ _ _ h

theorem perform_grows (c : Consumer) (h : Hub) (a : Act) : h.Grows (h.perform courier c a).1 := by
  cases a with
  | breakOff f => exact .refl h
  | addConsumer stage name reaction =>
      exact atStage_grows (.refl h) fun id => consume_grows id name reaction h
  | addConsumerOnce stage name reaction =>
      have hspent : h.Grows { h with spent := c.id :: h.spent } := grows_of_eq rfl
      rw [perform]
      split
      · exact .refl h
      · exact atStage_grows hspent fun id => hspent.trans (consume_grows id name reaction _)
  | addBranch stage operation name reaction =>
      exact atStage_grows (.refl h) fun id =>
        (derive_grows id operation h).trans (consume_grows _ name reaction _)
  | addStage stage operation =>
      exact atStage_grows (.refl h) fun id => derive_grows id operation h
  | attach stage child =>
      exact atStage_grows (.refl h) fun id =>
        atStage_grows (.refl h) fun c => attach_grows id (.stage c) h
  | feed stage e => exact atStage_grows (.refl h) fun id => pass_grows hcourier id e h
  | register category name reaction => exact grows_of_eq rfl
  | dispatch e => exact emit_grows hcourier .failFast e _ h

theorem performAll_grows (c : Consumer) (acts : List Act) (h : Hub) :
    h.Grows (performAll courier c acts h).1 := by
  induction acts generalizing h with
  | nil => exact .refl h
  | cons a rest ih =>
      have hfirst := perform_grows hcourier c h a
      unfold performAll
      split
      · next h₁ hdone =>
        rw [hdone] at hfirst
        exact hfirst.trans (ih h₁)
      · exact hfirst

end

theorem deliver_grows (behaviour : Behaviour) (depth : Nat) (sink : Sink) (e : GatewayEvent)
    (h : Hub) : h.Grows (deliver behaviour depth sink e h).1 := by
  induction depth generalizing sink e h with
  | zero => cases sink <;> exact grows_of_eq rfl
  | succ depth ih =>
      cases sink with
      | stage id => exact pass_grows ih id e h
      | consumer c =>
          have hreceived : h.Grows (h.receive c.name e) := grows_of_eq rfl
          exact hreceived.trans (performAll_grows ih c _ _)

theorem serve_grows (behaviour : Behaviour) (listeners : List Sink) (e : GatewayEvent) (h : Hub) :
    h.Grows (h.serve behaviour listeners e).1 :=
  emit_grows (deliver_grows behaviour h.depthLimit) .failFast e listeners h

theorem acceptAll_grows (behaviour : Behaviour) (id : StageId) (es : List GatewayEvent) (h : Hub) :
    h.Grows (h.acceptAll behaviour id es).1 := by
  induction es generalizing h with
  | nil => exact .refl h
  | cons e rest ih =>
      have hfirst : h.Grows (h.accept behaviour id e).1 :=
        pass_grows (deliver_grows behaviour h.depthLimit) id e h
      unfold acceptAll
      split
      · next h₁ hdone =>
        rw [hdone] at hfirst
        exact hfirst.trans (ih h₁)
      · exact hfirst

theorem step_grows (behaviour : Behaviour) (h : Hub) (s : HubStep) :
    h.Grows (h.step behaviour s).1 := by
  cases s with
  | start name policy => exact addStage_grows .identity policy h
  | standalone name operation => exact addStage_grows operation .failFast h
  | derive parent name operation => exact withStage_grows fun p => derive_grows p operation h
  | chain parent name length operation =>
      exact withStage_grows fun p => chain_grows operation length p h
  | attach parent child =>
      exact withStage_grows fun p => withStage_grows fun c => attach_grows p (.stage c) h
  | consume stage consumer reaction =>
      exact withStage_grows fun id => consume_grows id consumer reaction h
  | accept stage e =>
      exact withStage_grows fun id => pass_grows (deliver_grows behaviour h.depthLimit) id e h
  | acceptAll stage es => exact withStage_grows fun id => acceptAll_grows behaviour id es h
  | stage name =>
      refine withStage_grows fun id => ?_
      split <;> exact .refl h
  | registerStage category stage => exact withStage_grows fun id => grows_of_eq rfl
  | dispatch e => exact emit_grows (deliver_grows behaviour h.depthLimit) .failFast e _ h
  | _ => exact grows_of_eq rfl

theorem run_grows (behaviour : Behaviour) (steps : List HubStep) (h : Hub) :
    h.Grows (h.run behaviour steps) := by
  induction steps generalizing h with
  | nil => exact .refl h
  | cons s rest ih => exact (step_grows behaviour h s).trans (ih _)

end Hub

/-! ## One event -/

/-- An event comes to listeners, from one hub to another. -/
structure Routed (listeners : List Sink) (e : GatewayEvent) (h : Hub) (l : List Entry) (h' : Hub)
    (o : Outcome) : Prop where
  received : h'.received = h.received ++ receipts l
  /-- The listeners are visited in order, up to one that breaks off. -/
  emission : Emission .failFast e listeners (visits 0 l) (returns 0 l)
  all : o = .done → visits 0 l = listeners.map (·, e)
  /-- A visited pipeline that lets the event through hands it on, to the sinks that it had and to
  those that it has by then. -/
  onward : ∀ {i : Nat} {id : StageId} {g : Hub} {s : Stage} {out : GatewayEvent},
    l[i]? = some ⟨.visited 0 (.stage id) e, g⟩ → h.stages[id]? = some s →
    s.operation.apply e = .ok (some out) →
      l[i + 1]? = some ⟨.began (.stage id) out, g⟩
        ∧ (o = .done → ∃ more, visits (i + 2) l = (s.sinks ++ more).map (·, out))

namespace Hub

section

variable {courier : Courier} {scribe : Scribe} (hfaithful : Faithful courier scribe)
include hfaithful

/-- An emission that is done has visited all its sinks. -/
theorem visits_of_done {n : Nat} (policy : DeliveryPolicy) (e : GatewayEvent) :
    ∀ (sinks : List Sink) (h : Hub) {t : Nat}, n < t → (emit courier policy e sinks h).2 = .done →
      visits n (visitEntries courier scribe n policy e sinks h t) = sinks.map (·, e)
  | [], _, _, _, _ => rfl
  | sink :: rest, h, t, hn, hdone => by
      rcases hcall : courier sink e h with ⟨h₁, o⟩
      have hvisit := (visit_tells hfaithful hn hcall (.of_eq rfl rfl rfl)).visits_eq
      have hlater : ∀ k : Nat, n < t + k := fun k => Nat.lt_of_lt_of_le hn (Nat.le_add_right t k)
      rw [emit, hcall] at hdone
      rw [visitEntries, hcall]
      cases o with
      | done =>
          rw [visits_append, hvisit, visits_of_done policy e rest h₁ (hlater _) hdone]
          rfl
      | tooDeep => cases hdone
      | fault f =>
          cases policy with
          | failFast => cases hdone
          | isolate =>
              rw [visits_append, hvisit, visits_of_done .isolate e rest _ (hlater _) hdone]
              rfl

end

section

variable {courier : Courier} {scribe : Scribe} {sink : Sink} {rest : List Sink} {e : GatewayEvent}
  {h h₁ : Hub} {o : Outcome}

/-- A visit that is not done ends a fail-fast emission. -/
theorem emit_cons_done (hcall : courier sink e h = (h₁, o))
    (hdone : (emit courier .failFast e (sink :: rest) h).2 = .done) :
    o = .done ∧ (emit courier .failFast e rest h₁).2 = .done := by
  rw [emit, hcall] at hdone
  cases o with
  | done => exact ⟨rfl, hdone⟩
  | tooDeep => cases hdone
  | fault f => cases hdone

/-- The entries of a fail-fast emission are those of the first visit, and if it is done those of the
others. -/
theorem visitEntries_cons (hcall : courier sink e h = (h₁, o)) (n t : Nat) {first : List Entry}
    (hfirst : visit n sink e h (scribe sink e h (t + 1)) (h₁, o) = first) :
    ∃ more, visitEntries courier scribe n .failFast e (sink :: rest) h t = first ++ more
      ∧ (more = visitEntries courier scribe n .failFast e rest h₁ (t + first.length)
        ∨ more = []) := by
  rw [visitEntries, hcall, hfirst]
  cases o with
  | done => exact ⟨_, rfl, .inl rfl⟩
  | tooDeep => exact ⟨[], (List.append_nil _).symm, .inr rfl⟩
  | fault f => exact ⟨[], (List.append_nil _).symm, .inr rfl⟩

end

section

variable {behaviour : Behaviour} {depth : Nat} {id : StageId} {e out : GatewayEvent} {h g : Hub}
  {s : Stage}

/-- What a visit to a pipeline leaves, if the pipeline lets the event through. -/
theorem deliverEntries_stage (hs : h.stages[id]? = some s)
    (hout : s.operation.apply e = .ok (some out)) (t : Nat) :
    deliverEntries behaviour (depth + 1) (.stage id) e h t =
      ⟨.began (.stage id) out, h⟩ ::
        visitEntries (deliver behaviour depth) (deliverEntries behaviour depth) t s.policy out
          s.sinks h (t + 1) := by
  rw [deliverEntries, passEntries, hs]
  simp only [hout, emissionEntries, policyOf, sinksOf, hs]

theorem deliver_stage (hs : h.stages[id]? = some s) (hout : s.operation.apply e = .ok (some out)) :
    deliver behaviour (depth + 1) (.stage id) e h =
      emit (deliver behaviour depth) s.policy out s.sinks h := by
  rw [deliver, pass, hs]
  simp only [hout]

/-- In the entries of one visit, only the first is a visit of the emission around it. -/
theorem visit_getElem? {sink sink' : Sink} {t i : Nat} {r : Hub × Outcome}
    (hi : (visit 0 sink e h (deliverEntries behaviour depth sink e h (t + 1)) r)[i]? =
      some ⟨.visited 0 sink' e, g⟩) : i = 0 ∧ sink' = sink ∧ g = h := by
  cases i with
  | zero =>
      cases hi
      exact ⟨rfl, rfl, rfl⟩
  | succ i =>
      have hmem := List.mem_of_getElem? (l := _ ++ _) hi
      rcases List.mem_append.mp hmem with hinside | hreturned
      · have hwhole := deliver_faithful behaviour depth sink e h (t + 1)
        rcases hwhole.bounds hinside rfl with hfalse | ⟨hle, -⟩
        · exact hfalse.elim
        · omega
      · cases List.mem_singleton.mp hreturned

/-- In the entries of a visit to a pipeline, it begins at once to hand on what it lets through. -/
theorem visit_stage (hs : h.stages[id]? = some s) (hout : s.operation.apply e = .ok (some out))
    (t : Nat) (r : Hub × Outcome) :
    (visit 0 (.stage id) e h (deliverEntries behaviour (depth + 1) (.stage id) e h (t + 1)) r)[1]? =
      some ⟨.began (.stage id) out, h⟩ := by
  rw [visit, deliverEntries_stage hs hout]
  rfl

/-- A visit to a pipeline that is done brings what it lets through to all its sinks. -/
theorem visits_visit_stage (hs : h.stages[id]? = some s)
    (hout : s.operation.apply e = .ok (some out)) (t : Nat) {r : Hub × Outcome}
    (hcall : deliver behaviour (depth + 1) (.stage id) e h = r) (hdone : r.2 = .done) :
    visits (t + 1)
        (visit 0 (.stage id) e h (deliverEntries behaviour (depth + 1) (.stage id) e h (t + 1)) r) =
      s.sinks.map (·, out) := by
  rw [← hcall, deliver_stage hs hout] at hdone
  rw [visit, deliverEntries_stage hs hout, ← visits_of_done (deliver_faithful behaviour depth)
    s.policy out s.sinks h (Nat.lt_succ_self (t + 1)) hdone]
  simp [visits]

/-- A pipeline is visited in a hub that has grown since the beginning, and it hands on what it lets
through to all the sinks that it has by then. The induction is on the sinks that are left. -/
theorem onward_of_visited :
    ∀ (sinks : List Sink) (h : Hub) {t i : Nat}, 0 < t →
      (visitEntries (deliver behaviour (depth + 1)) (deliverEntries behaviour (depth + 1)) 0
        .failFast e sinks h t)[i]? = some ⟨.visited 0 (.stage id) e, g⟩ →
      h.Grows g ∧ ∀ {s : Stage} {out : GatewayEvent}, g.stages[id]? = some s →
        s.operation.apply e = .ok (some out) →
          (visitEntries (deliver behaviour (depth + 1)) (deliverEntries behaviour (depth + 1)) 0
              .failFast e sinks h t)[i + 1]? = some ⟨.began (.stage id) out, g⟩
            ∧ ((emit (deliver behaviour (depth + 1)) .failFast e sinks h).2 = .done →
              visits (t + i + 1) (visitEntries (deliver behaviour (depth + 1))
                (deliverEntries behaviour (depth + 1)) 0 .failFast e sinks h t) =
                  s.sinks.map (·, out))
  | [], _, _, _, _, hi => by cases hi
  | sink :: rest, h, t, i, ht, hi => by
      rcases hcall : deliver behaviour (depth + 1) sink e h with ⟨h₁, o⟩
      have hfaithful := deliver_faithful behaviour (depth + 1)
      have hvisit := visit_tells hfaithful ht hcall (.of_eq rfl rfl rfl)
      generalize hfirst : visit 0 sink e h (deliverEntries behaviour (depth + 1) sink e h (t + 1))
        (h₁, o) = first at hvisit
      obtain ⟨more, hentries, hmore⟩ := @visitEntries_cons _ _ _ rest _ _ _ _ hcall 0 t _ hfirst
      have hlater : 0 < t + first.length := Nat.lt_of_lt_of_le ht (Nat.le_add_right t _)
      rw [hentries] at hi ⊢
      rcases Nat.lt_or_ge i first.length with hlt | hge
      · -- It is the first sink, and what comes of the others belongs to later emissions.
        rw [List.getElem?_append_left hlt, ← hfirst] at hi
        obtain ⟨rfl, hsink, rfl⟩ := visit_getElem? hi
        subst hsink
        refine ⟨.refl g, fun {s out} hs hout => ?_⟩
        have hbegan := @visit_stage behaviour depth _ _ _ _ _ hs hout t (h₁, o)
        rw [hfirst] at hbegan
        have hlen := (List.getElem?_eq_some_iff.mp hbegan).1
        refine ⟨by rw [List.getElem?_append_left hlen, hbegan], fun hdone => ?_⟩
        obtain ⟨rfl, -⟩ := emit_cons_done hcall hdone
        have hothers : visits (t + 1) more = [] := by
          rcases hmore with rfl | rfl
          · have hround := visitEntries_tells hfaithful .failFast e rest h₁ hlater
            exact (hround.stretch.visits_eq_nil (Nat.succ_ne_zero t) (.inl (by omega))).1
          · rfl
        rw [visits_append, Nat.add_zero, hothers, List.append_nil, ← hfirst]
        exact visits_visit_stage hs hout t hcall rfl
      · rw [List.getElem?_append_right hge] at hi
        rcases hmore with rfl | rfl
        · obtain ⟨hgrown, honward⟩ := onward_of_visited rest h₁ hlater hi
          have hcalled := deliver_grows behaviour (depth + 1) sink e h
          rw [hcall] at hcalled
          refine ⟨hcalled.trans hgrown, fun {s out} hs hout => ?_⟩
          obtain ⟨hbegan, hall⟩ := honward hs hout
          have hplace : i + 1 - first.length = i - first.length + 1 := by omega
          have hnumber : t + i + 1 = t + first.length + (i - first.length) + 1 := by omega
          constructor
          · rw [List.getElem?_append_right (Nat.le_succ_of_le hge), hplace]
            exact hbegan
          · intro hdone
            have hbefore := (hvisit.stretch.visits_eq_nil (Nat.succ_ne_zero (t + i))
              (.inr (by omega))).1
            rw [visits_append, hbefore, hnumber]
            exact hall (emit_cons_done hcall hdone).2
        · cases hi

end

/-- **An event comes to exactly the given listeners.** They are visited in order, each at its place,
and all of them unless one breaks off. A pipeline among them hands on what it lets through to the
sinks that it has then. -/
theorem serve_routes (behaviour : Behaviour) (listeners : List Sink) (e : GatewayEvent) (h : Hub) :
    ∃ l, Routed listeners e h l (h.serve behaviour listeners e).1
      (h.serve behaviour listeners e).2 := by
  obtain ⟨depth, hdepth⟩ : ∃ depth, h.depthLimit = depth + 1 := ⟨h.stages.size + 9999, rfl⟩
  have hfaithful := deliver_faithful behaviour (depth + 1)
  have hround := visitEntries_tells hfaithful .failFast e listeners h Nat.one_pos
  unfold serve
  rw [hdepth]
  refine ⟨_, hround.stretch.received, hround.emission,
    visits_of_done hfaithful .failFast e listeners h Nat.one_pos, ?_⟩
  intro i id g s out hi hs hout
  obtain ⟨hgrown, honward⟩ := onward_of_visited listeners h Nat.one_pos hi
  obtain ⟨more, hs'⟩ := hgrown id s hs
  obtain ⟨hbegan, hall⟩ := honward hs' hout
  refine ⟨hbegan, fun hdone => ⟨more, ?_⟩⟩
  have hnumber : i + 2 = 1 + i + 1 := by omega
  rw [hnumber]
  exact hall hdone

end Hub

namespace Routed

variable {listeners : List Sink} {e : GatewayEvent} {h h' : Hub} {l : List Entry} {o : Outcome}

theorem exists_of_mem_visits {n : Nat} {sink : Sink} {e' : GatewayEvent}
    (hvisited : (sink, e') ∈ visits n l) :
    ∃ (i : Nat) (g : Hub), l[i]? = some ⟨.visited n sink e', g⟩ := by
  obtain ⟨⟨moment, g⟩, hmem, hmoment⟩ := List.mem_filterMap.mp hvisited
  obtain ⟨i, hi⟩ := List.mem_iff_getElem?.mp hmem
  refine ⟨i, g, ?_⟩
  dsimp only at hmoment
  split at hmoment
  · split at hmoment
    · next hn =>
      cases hmoment
      rw [hi, hn]
    · cases hmoment
  · cases hmoment

/-- Whatever sinks a listening pipeline had, and others behind them, get what it lets through. -/
theorem appended (hrouted : Routed listeners e h l h' .done) {id : StageId} {s : Stage}
    {out : GatewayEvent} (hlistens : .stage id ∈ listeners) (hs : h.stages[id]? = some s)
    (hout : s.operation.apply e = .ok (some out)) :
    ∃ (n : Nat) (g : Hub), l[n]? = some ⟨.began (.stage id) out, g⟩
      ∧ s.sinks.map (·, out) <+: visits (n + 1) l := by
  have hvisited : (Sink.stage id, e) ∈ visits 0 l := by
    rw [hrouted.all rfl]
    exact List.mem_map_of_mem hlistens
  obtain ⟨i, g, hi⟩ := exists_of_mem_visits hvisited
  obtain ⟨hbegan, hall⟩ := hrouted.onward hi hs hout
  obtain ⟨more, hvisits⟩ := hall rfl
  refine ⟨i + 1, g, hbegan, ?_⟩
  rw [hvisits, List.map_append]
  exact List.prefix_append _ _

end Routed

end GatewayClient
