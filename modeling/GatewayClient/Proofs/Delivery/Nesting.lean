import GatewayClient.Proofs.Delivery.Routing
import GatewayClient.Proofs.Delivery.Termination

/-!
# How deep deliveries nest

An emission that is not cut short by a fault visits all its sinks, unless deliveries nest too deep.
Two things are said about that.

- **A visit meets the limit only at the bottom of a row of visits** that have all begun and not
  returned, one more than the limit has levels. `Sounded` says so of each part of a delivery: a part
  ends too deep if and only if its chronicle goes down to the bottom and from there on only returns.
- **Where consumers feed nothing back** such a row is a path in the graph. Consumers may append
  stages while they are called, but links only ever come to a graph, so it is a path in the graph
  that is left in the end; and if that has no cycles, no row is longer than the graph has stages
  (`pass_ends`).

With both, the chronicle of a run tells of each emission which sinks it visited and what cut it
short (`run_visits_snapshots`).
-/

namespace GatewayClient

/-! ## Visits that have not returned -/

/-- A visit goes one level down, and its return up again. -/
def Moment.descent : Moment → Int
  | .visited .. => 1
  | .returned .. => -1
  | _ => 0

/-- How many visits of a chronicle have not returned at its end. -/
def nesting (l : List Entry) : Int := l.foldr (·.moment.descent + ·) 0

@[simp] theorem nesting_nil : nesting [] = 0 := rfl

@[simp] theorem nesting_cons (k : Entry) (l : List Entry) :
    nesting (k :: l) = k.moment.descent + nesting l := rfl

@[simp] theorem nesting_append (l l' : List Entry) :
    nesting (l ++ l') = nesting l + nesting l' := by
  induction l with
  | nil => simp
  | cons k l ih => rw [List.cons_append, nesting_cons, ih, nesting_cons, Int.add_assoc]

/-- The return from a visit that was, or led to, one too deep. -/
def Entry.Deep (k : Entry) : Prop := ∃ n, k.moment = .returned n .tooDeep

/-- A part of a delivery that nests at most `depth` deep, with how it ended. All its visits return.
If it ended too deep its chronicle goes down to that depth and then only returns; otherwise no visit
was too deep. -/
structure Sounded (depth : Nat) (l : List Entry) (o : Outcome) : Prop where
  level : nesting l = 0
  clear : o ≠ .tooDeep → ∀ k ∈ l, ¬ k.Deep
  bottom : o = .tooDeep → ∃ down up, l = down ++ up ∧ nesting down = depth
    ∧ (∀ k ∈ down, ¬ k.Deep) ∧ ∀ k ∈ up, k.Deep

namespace Sounded

variable {depth : Nat} {l l' : List Entry} {o o' : Outcome}

theorem nil (ho : o ≠ .tooDeep) : Sounded depth [] o :=
  ⟨rfl, fun _ _ hk => (List.not_mem_nil hk).elim, fun heq => absurd heq ho⟩

/-- A moment that is neither a visit nor a return. -/
theorem single {k : Entry} (hdescent : k.moment.descent = 0) (ho : o ≠ .tooDeep) :
    Sounded depth [k] o := by
  refine ⟨by simp [hdescent], fun _ k' hk' => ?_, fun heq => absurd heq ho⟩
  rintro ⟨n, hn⟩
  rw [List.mem_singleton.mp hk'] at hn
  rw [hn] at hdescent
  cases hdescent

theorem append (hfirst : Sounded depth l o) (ho : o ≠ .tooDeep) (hsecond : Sounded depth l' o') :
    Sounded depth (l ++ l') o' where
  level := by rw [nesting_append, hfirst.level, hsecond.level, Int.add_zero]
  clear ho' k hk := (List.mem_append.mp hk).elim (hfirst.clear ho k) (hsecond.clear ho' k)
  bottom ho' := by
    obtain ⟨down, up, rfl, hdepth, hdown, hup⟩ := hsecond.bottom ho'
    refine ⟨l ++ down, up, (List.append_assoc ..).symm, ?_, fun k hk => ?_, hup⟩
    · rw [nesting_append, hfirst.level, hdepth, Int.zero_add]
    · exact (List.mem_append.mp hk).elim (hfirst.clear ho k) (hdown k)

/-- A visit is one level deeper than what happens inside. -/
theorem visit {h : Hub} {inside : List Entry} {r : Hub × Outcome}
    (hinside : Sounded depth inside r.2) (n : Nat) (sink : Sink) (e : GatewayEvent) :
    Sounded (depth + 1) (Hub.visit n sink e h inside r) r.2 := by
  have hvisited : ¬ Entry.Deep ⟨.visited n sink e, h⟩ := fun ⟨_, hm⟩ => by cases hm
  constructor
  · simp [Hub.visit, Moment.descent, hinside.level]
  · intro ho k hk
    rcases List.mem_cons.mp hk with rfl | hk
    · exact hvisited
    · rcases List.mem_append.mp hk with hk | hk
      · exact hinside.clear ho k hk
      · rintro ⟨m, hm⟩
        rw [List.mem_singleton.mp hk] at hm
        exact ho (Moment.returned.inj hm).2
  · intro ho
    obtain ⟨down, up, hsplit, hdepth, hdown, hup⟩ := hinside.bottom ho
    refine ⟨⟨.visited n sink e, h⟩ :: down, up ++ [⟨.returned n r.2, r.1⟩], ?_, ?_, fun k hk => ?_,
      fun k hk => ?_⟩
    · rw [Hub.visit, hsplit, List.cons_append, List.append_assoc]
    · rw [nesting_cons, hdepth, Moment.descent, Int.add_comm]
      rfl
    · rcases List.mem_cons.mp hk with rfl | hk
      · exact hvisited
      · exact hdown k hk
    · rcases List.mem_append.mp hk with hk | hk
      · exact hup k hk
      · rw [List.mem_singleton.mp hk, ho]
        exact ⟨n, rfl⟩

end Sounded

namespace Hub

section

variable {courier : Courier} {scribe : Scribe} {depth : Nat}
  (hsounded : ∀ sink e h t, Sounded depth (scribe sink e h t) (courier sink e h).2)
include hsounded

theorem visitEntries_sounded (n : Nat) (policy : DeliveryPolicy) (e : GatewayEvent) :
    ∀ (sinks : List Sink) (h : Hub) (t : Nat),
      Sounded (depth + 1) (visitEntries courier scribe n policy e sinks h t)
        (emit courier policy e sinks h).2
  | [], _, _ => .nil Outcome.done_ne
  | sink :: rest, h, t => by
      have hvisit := (hsounded sink e h (t + 1)).visit (h := h) n sink e
      rw [visitEntries, emit]
      rcases hcall : courier sink e h with ⟨h₁, o⟩
      rw [hcall] at hvisit
      cases o with
      | done => exact hvisit.append Outcome.done_ne (visitEntries_sounded n policy e rest h₁ _)
      | tooDeep => exact hvisit
      | fault f =>
          cases policy with
          | failFast => exact hvisit
          | isolate =>
              exact hvisit.append (Outcome.fault_ne f)
                (visitEntries_sounded n .isolate e rest _ _)

theorem emissionEntries_sounded (source : Source) (e : GatewayEvent) (h : Hub) (t : Nat) :
    Sounded (depth + 1) (emissionEntries courier scribe source e h t)
      (emit courier (h.policyOf source) e (h.sinksOf source) h).2 :=
  Sounded.append (.single rfl Outcome.done_ne) Outcome.done_ne
    (visitEntries_sounded hsounded t _ e _ h (t + 1))

theorem passEntries_sounded (id : StageId) (e : GatewayEvent) (h : Hub) (t : Nat) :
    Sounded (depth + 1) (passEntries courier scribe id e h t) (h.pass courier id e).2 := by
  unfold passEntries pass
  cases hs : h.stages[id]? with
  | none => exact .nil Outcome.done_ne
  | some s =>
      dsimp only
      cases hout : s.operation.apply e with
      | error f => exact .nil (Outcome.fault_ne _)
      | ok out? =>
          cases out? with
          | none => exact .nil Outcome.done_ne
          | some out =>
              have hemission := emissionEntries_sounded hsounded (.stage id) out h t
              simp only [policyOf, sinksOf, hs] at hemission
              exact hemission

theorem performEntries_sounded (c : Consumer) (h : Hub) (t : Nat) (a : Act) :
    Sounded (depth + 1) (performEntries courier scribe c h t a) (h.perform courier c a).2 := by
  by_cases hemits : a.Emits
  · cases a with
    | feed stage e =>
        rw [performEntries, perform, atStage]
        cases h.locate? stage with
        | error f => exact .nil (Outcome.fault_ne _)
        | ok id => exact passEntries_sounded hsounded id e h t
    | dispatch e => exact emissionEntries_sounded hsounded (.listeners e.category) e h t
    | _ => exact hemits.elim
  · have hentries : performEntries courier scribe c h t a = [⟨.appended (a.appends c h), h⟩] := by
      cases a with
      | feed | dispatch => exact absurd trivial hemits
      | _ => rfl
    rw [hentries]
    exact .single rfl (perform_ends hemits)

theorem performAllEntries_sounded (c : Consumer) :
    ∀ (acts : List Act) (h : Hub) (t : Nat),
      Sounded (depth + 1) (performAllEntries courier scribe c acts h t)
        (performAll courier c acts h).2
  | [], _, _ => .nil Outcome.done_ne
  | a :: rest, h, t => by
      have hfirst := performEntries_sounded hsounded c h t a
      rw [performAllEntries, performAll]
      rcases hact : h.perform courier c a with ⟨h₁, o⟩
      rw [hact] at hfirst
      cases o with
      | done => exact hfirst.append Outcome.done_ne (performAllEntries_sounded c rest h₁ _)
      | fault f => exact hfirst
      | tooDeep => exact hfirst

end

variable {behaviour : Behaviour}

/-- Within a delivery, visits nest exactly as deep as it may if one of them is too deep. -/
theorem deliverEntries_sounded (behaviour : Behaviour) :
    ∀ depth sink e h t, Sounded depth (deliverEntries behaviour depth sink e h t)
      (deliver behaviour depth sink e h).2
  | 0, sink, e, h, t => by
      refine ⟨rfl, fun _ _ hk => (List.not_mem_nil hk).elim, fun _ => ⟨[], [], rfl, rfl, ?_, ?_⟩⟩
      · exact fun _ hk => (List.not_mem_nil hk).elim
      · exact fun _ hk => (List.not_mem_nil hk).elim
  | depth + 1, .stage id, e, h, t =>
      passEntries_sounded (deliverEntries_sounded behaviour depth) id e h t
  | depth + 1, .consumer c, e, h, t =>
      performAllEntries_sounded (deliverEntries_sounded behaviour depth) c _ _ t

end Hub

/-! ## The bottom of a run -/

/-- An emission is cut short by the limit of depth only where deliveries nest that deep: between its
beginning and the return that cuts it there is a moment at which more visits are open than there
were stages and ten thousand, counted from an emission that began no later. -/
structure DeepWhereCut (t : Nat) (l : List Entry) : Prop where
  deep : ∀ {i n : Nat} {g : Hub}, l[i]? = some ⟨.returned n .tooDeep, g⟩ →
    ∃ (m j : Nat) (source : Source) (e : GatewayEvent) (g₀ : Hub),
      l[m]? = some ⟨.began source e, g₀⟩ ∧ t + m ≤ n ∧ n < t + j ∧ j ≤ i
        ∧ (g₀.stages.size : Int) + 10000 < nesting ((l.take j).drop m)

namespace DeepWhereCut

variable {t : Nat} {l l' : List Entry}

theorem nil : DeepWhereCut t [] := ⟨fun hi => by cases hi⟩

theorem single {k : Entry} (hk : ¬ k.Deep) : DeepWhereCut t [k] := by
  refine ⟨fun {i n g} hi => ?_⟩
  have hmem := List.mem_of_getElem? hi
  exact absurd ⟨n, by rw [← List.mem_singleton.mp hmem]⟩ hk

theorem append (hfirst : DeepWhereCut t l) (hsecond : DeepWhereCut (t + l.length) l') :
    DeepWhereCut t (l ++ l') := by
  refine ⟨fun {i n g} hi => ?_⟩
  rcases Nat.lt_or_ge i l.length with hlt | hge
  · rw [List.getElem?_append_left hlt] at hi
    obtain ⟨m, j, source, e, g₀, hbegan, hmn, hnj, hji, hdeep⟩ := hfirst.deep hi
    have hm := (List.getElem?_eq_some_iff.mp hbegan).1
    refine ⟨m, j, source, e, g₀, by rw [List.getElem?_append_left hm, hbegan], hmn, hnj, hji, ?_⟩
    rwa [List.take_append_of_le_length (by omega)]
  · rw [List.getElem?_append_right hge] at hi
    obtain ⟨m, j, source, e, g₀, hbegan, hmn, hnj, hji, hdeep⟩ := hsecond.deep hi
    refine ⟨l.length + m, l.length + j, source, e, g₀, ?_, by omega, by omega, by omega, ?_⟩
    · rwa [List.getElem?_append_right (Nat.le_add_right ..), Nat.add_sub_cancel_left]
    · rwa [List.take_length_add_append, ← List.drop_drop, List.drop_left]

/-- The chronicle of what an entry point serves. -/
theorem of_sounded {source : Source} {e : GatewayEvent} {h h' : Hub} {o : Outcome}
    {vs : List Entry} (hl : l = ⟨.began source e, h⟩ :: vs)
    (hsounded : Sounded (h.depthLimit + 1) l o) (hwhole : Whole t h l h') : DeepWhereCut t l := by
  refine ⟨fun {i n g} hi => ?_⟩
  have hdeep : Entry.Deep ⟨.returned n .tooDeep, g⟩ := ⟨n, rfl⟩
  have ho : o = .tooDeep := Decidable.byContradiction fun ho =>
    hsounded.clear ho _ (List.mem_of_getElem? hi) hdeep
  obtain ⟨down, up, hsplit, hdepth, hdown, hup⟩ := hsounded.bottom ho
  -- What returns too deep comes after the bottom, and what begins comes before it.
  have hafter : down.length ≤ i := Nat.not_lt.mp fun hlt => by
    rw [hsplit, List.getElem?_append_left hlt] at hi
    exact hdown _ (List.mem_of_getElem? hi) hdeep
  obtain hfalse | ⟨k, rfl, -, source', e', g', hk⟩ := hwhole.mentions hi rfl
  · exact hfalse.elim
  have hbefore : k < down.length := Nat.not_le.mp fun hle => by
    rw [hsplit, List.getElem?_append_right hle] at hk
    obtain ⟨m, hm⟩ := hup _ (List.mem_of_getElem? hk)
    cases hm
  refine ⟨0, down.length, source, e, h, by rw [hl]; rfl, by omega, by omega, hafter, ?_⟩
  rw [hsplit, List.take_left, List.drop_zero, hdepth, Hub.depthLimit, Hub.room]
  omega

end DeepWhereCut

namespace Hub

variable (behaviour : Behaviour)

theorem acceptEntries_deepWhereCut (id : StageId) (e : GatewayEvent) (h : Hub) (t : Nat) :
    DeepWhereCut t (acceptEntries behaviour id e h t) := by
  have hsounded := passEntries_sounded (deliverEntries_sounded behaviour h.depthLimit) id e h t
  have hwhole := acceptEntries_tells behaviour id e h t
  rw [acceptEntries] at hwhole ⊢
  revert hsounded hwhole
  rw [passEntries]
  split
  · exact fun _ _ => .nil
  · split
    · exact fun hsounded hwhole => .of_sounded rfl hsounded hwhole
    · exact fun _ _ => .nil

theorem dispatchEntries_deepWhereCut (e : GatewayEvent) (h : Hub) (t : Nat) :
    DeepWhereCut t (dispatchEntries behaviour e h t) :=
  .of_sounded rfl
    (emissionEntries_sounded (deliverEntries_sounded behaviour h.depthLimit) _ e h t)
    (stepEntries_tells behaviour h t (.dispatch e))

theorem acceptAllEntries_deepWhereCut (id : StageId) :
    ∀ (es : List GatewayEvent) (h : Hub) (t : Nat),
      DeepWhereCut t (acceptAllEntries behaviour id es h t)
  | [], _, _ => .nil
  | e :: rest, h, t => by
      have hfirst := acceptEntries_deepWhereCut behaviour id e h t
      rw [acceptAllEntries]
      split
      · exact hfirst.append (acceptAllEntries_deepWhereCut id rest _ _)
      · exact hfirst

theorem stepEntries_deepWhereCut (h : Hub) (t : Nat) (s : HubStep) :
    DeepWhereCut t (h.stepEntries behaviour t s) := by
  have happended : ∀ more, DeepWhereCut t [⟨.appended more, h⟩] := fun _ =>
    .single fun ⟨_, hm⟩ => by cases hm
  cases s with
  | accept stage e =>
      rw [stepEntries]
      split
      · exact acceptEntries_deepWhereCut behaviour _ e h t
      · exact .nil
  | acceptAll stage es =>
      rw [stepEntries]
      split
      · exact acceptAllEntries_deepWhereCut behaviour _ es h t
      · exact .nil
  | dispatch e => exact dispatchEntries_deepWhereCut behaviour e h t
  | _ => exact happended _

/-- A run in which an emission is cut by the limit of depth nests that deep there. -/
theorem runEntries_deepWhereCut :
    ∀ (steps : List HubStep) (h : Hub) (t : Nat),
      DeepWhereCut t (runEntries behaviour steps h t)
  | [], _, _ => .nil
  | s :: rest, h, t =>
    (stepEntries_deepWhereCut behaviour h t s).append (runEntries_deepWhereCut rest _ _)

/-! ## Consumers that feed nothing back -/

section

variable {h h' : Hub}

theorem Grows.link (hgrows : h.Grows h') {a b : StageId} (hlink : h.Link a b) : h'.Link a b := by
  obtain ⟨s, hs, hmem⟩ := hlink
  obtain ⟨more, hs'⟩ := hgrows a s hs
  exact ⟨_, hs', List.mem_append_left _ hmem⟩

theorem Grows.acyclic (hgrows : h.Grows h') (hacyclic : h'.Acyclic) : h.Acyclic :=
  fun a hcycle => hacyclic a (Relation.TransGen.mono (fun _ _ => hgrows.link) a a hcycle)

theorem Grows.size_le (hgrows : h.Grows h') : h.stages.size ≤ h'.stages.size := by
  refine Nat.not_lt.mp fun hlt => ?_
  obtain ⟨more, hs'⟩ := hgrows _ _ (Array.getElem?_eq_getElem hlt)
  exact Nat.lt_irrefl _ (Array.getElem?_eq_some_iff.mp hs').1

end

section

variable {behaviour : Behaviour} {kind : Consumer → Prop} {h final : Hub}

/-- A consumer whose acts emit nothing comes to an end. -/
theorem performAll_ends {courier : Courier} {c : Consumer} :
    ∀ (acts : List Act) (h : Hub), (∀ a ∈ acts, ¬ a.Emits) →
      (performAll courier c acts h).2 ≠ .tooDeep
  | [], _, _ => Outcome.done_ne
  | a :: rest, h, hacts => by
      have hends : (h.perform courier c a).2 ≠ .tooDeep := perform_ends (hacts a List.mem_cons_self)
      rw [performAll]
      rcases hact : h.perform courier c a with ⟨h₁, o⟩
      rw [hact] at hends
      cases o with
      | done => exact performAll_ends rest h₁ fun a ha => hacts a (List.mem_cons_of_mem _ ha)
      | fault f => exact Outcome.fault_ne f
      | tooDeep => exact absurd rfl hends

/-- A courier that brings an event to a sink without going too deep, as long as what is left in the
end grows into the final hub. -/
def Ends (kind : Consumer → Prop) (final : Hub) (courier : Courier) (sink : Sink) : Prop :=
  ∀ e h, h.Only kind → (courier sink e h).1.Grows final → (courier sink e h).2 ≠ .tooDeep

theorem emit_ends (hconfined : Confined behaviour (¬ ·.Emits) kind) {depth : Nat}
    (policy : DeliveryPolicy) (e : GatewayEvent) :
    ∀ (sinks : List Sink) (h : Hub), (∀ sink ∈ sinks, sink.OfKind kind) →
      (∀ sink ∈ sinks, Ends kind final (deliver behaviour depth) sink) → h.Only kind →
      (emit (deliver behaviour depth) policy e sinks h).1.Grows final →
      (emit (deliver behaviour depth) policy e sinks h).2 ≠ .tooDeep
  | [], _, _, _, _, _ => Outcome.done_ne
  | sink :: rest, h, hkind, hends, honly, hgrows => by
      have hfirst := hends sink List.mem_cons_self e h honly
      have honly₁ := (deliver_keeps_confined hconfined unbroken_trivial depth sink e h
        (hkind sink List.mem_cons_self) honly trivial).1
      have hkind' := fun s hs => hkind s (List.mem_cons_of_mem _ hs)
      have hends' := fun s hs => hends s (List.mem_cons_of_mem _ hs)
      rw [emit] at hgrows ⊢
      rcases hcall : deliver behaviour depth sink e h with ⟨h₁, o⟩
      rw [hcall] at hfirst honly₁ hgrows
      cases o with
      | done => exact emit_ends hconfined policy e rest h₁ hkind' hends' honly₁ hgrows
      | tooDeep => exact hfirst hgrows
      | fault f =>
          cases policy with
          | failFast => exact Outcome.fault_ne f
          | isolate => exact emit_ends hconfined .isolate e rest _ hkind' hends' honly₁ hgrows

/-- **Where consumers feed nothing back, deliveries nest no deeper than there are levels** in the
graph that is left in the end. The induction is on these levels. -/
theorem pass_ends (hacyclic : final.Acyclic) (hconfined : Confined behaviour (¬ ·.Emits) kind) :
    ∀ {n depth : Nat}, n ≤ depth → ∀ (a : StageId) (e : GatewayEvent) (h : Hub),
      final.Fits n (.stage a) → h.Only kind →
      (h.pass (deliver behaviour depth) a e).1.Grows final →
      (h.pass (deliver behaviour depth) a e).2 ≠ .tooDeep := by
  intro n
  induction n with
  | zero =>
      intro depth _ a e h hfits honly hgrows
      have hbefore := (pass_grows (deliver_grows behaviour depth) a e h).trans hgrows
      cases hs : h.stages[a]? with
      | none =>
          rw [pass, hs]
          exact Outcome.done_ne
      | some s =>
          obtain ⟨more, hs'⟩ := hbefore a s hs
          exact absurd hfits (not_fits_zero hs')
  | succ n ih =>
      intro depth hdepth a e h hfits honly hgrows
      obtain ⟨depth, rfl⟩ : ∃ depth', depth = depth' + 1 := ⟨depth - 1, by omega⟩
      have hbefore := (pass_grows (deliver_grows behaviour (depth + 1)) a e h).trans hgrows
      rw [pass] at hgrows ⊢
      split
      · exact Outcome.done_ne
      · next s hs =>
        rw [hs] at hgrows
        dsimp only at hgrows
        split
        · exact Outcome.fault_ne _
        · exact Outcome.done_ne
        · next out hout =>
          rw [hout] at hgrows
          obtain ⟨more, hs'⟩ := hbefore a s hs
          have hkind : ∀ sink ∈ s.sinks, sink.OfKind kind := fun sink hsink =>
            honly (.stage a) sink (by rwa [sinksOf, hs])
          refine emit_ends hconfined s.policy out s.sinks h hkind (fun sink hsink => ?_) honly
            hgrows
          intro e' h' honly' hgrows'
          cases sink with
          | consumer c => exact performAll_ends _ _ (hconfined.acts (hkind _ hsink) e' _)
          | stage b =>
              exact ih (Nat.le_of_succ_le_succ hdepth) b e' h'
                (hfits.sink hacyclic hs' (List.mem_append_left _ hsink)) honly' hgrows'

/-- Fewer than ten thousand stages are appended. -/
theorem accept_ends_of_few (hconfined : Confined behaviour (¬ ·.Emits) kind) (id : StageId)
    (e : GatewayEvent) {h : Hub} (honly : h.Only kind)
    (hacyclic : (h.accept behaviour id e).1.Acyclic)
    (hfew : (h.accept behaviour id e).1.stages.size < h.stages.size + 10000) :
    (h.accept behaviour id e).2 ≠ .tooDeep :=
  pass_ends hacyclic hconfined (Nat.le_of_lt hfew) id e h (fits_size hacyclic id) honly (.refl _)

/-- Listeners are one level above the stages among them. -/
theorem serve_ends_of_few (hconfined : Confined behaviour (¬ ·.Emits) kind) {listeners : List Sink}
    (hlisteners : ∀ sink ∈ listeners, sink.OfKind kind) (e : GatewayEvent) {h : Hub}
    (honly : h.Only kind) (hacyclic : (h.serve behaviour listeners e).1.Acyclic)
    (hfew : (h.serve behaviour listeners e).1.stages.size < h.stages.size + 10000) :
    (h.serve behaviour listeners e).2 ≠ .tooDeep := by
  obtain ⟨depth, hdepth⟩ : ∃ depth, h.depthLimit = depth + 1 := ⟨h.stages.size + 9999, rfl⟩
  have hle : (h.serve behaviour listeners e).1.stages.size ≤ depth := by
    rw [depthLimit, room] at hdepth
    omega
  generalize hfinal : (h.serve behaviour listeners e).1 = final at hacyclic hle
  have hgrows : (h.serve behaviour listeners e).1.Grows final := hfinal ▸ .refl _
  unfold serve at hgrows ⊢
  rw [hdepth] at hgrows ⊢
  refine emit_ends hconfined .failFast e listeners h hlisteners (fun sink hsink => ?_) honly hgrows
  intro e' h' honly' hgrows'
  cases sink with
  | consumer c => exact performAll_ends _ _ (hconfined.acts (hlisteners _ hsink) e' _)
  | stage b => exact pass_ends hacyclic hconfined hle b e' h' (fits_size hacyclic b) honly' hgrows'

/-- Consumers that append no stages leave the links as they are. -/
theorem serve_ends (hacyclic : h.Acyclic) (hconfined : Confined behaviour Act.Plain kind)
    (honly : h.Only kind) {listeners : List Sink}
    (hlisteners : ∀ sink ∈ listeners, sink.OfKind kind) (e : GatewayEvent) :
    (h.serve behaviour listeners e).2 ≠ .tooDeep := by
  have hinv := unbroken_sameLinks h
  have hsame : h.SameLinks (h.serve behaviour listeners e).1 :=
    (emit_keeps_confined hinv (deliver_keeps_confined hconfined hinv h.depthLimit) .failFast e
      listeners h hlisteners honly (.refl h)).2
  refine serve_ends_of_few (hconfined.mono Act.Plain.not_emits) hlisteners e honly
    (hsame.acyclic hacyclic) ?_
  rw [hsame.size]
  omega

/-! ## Runs -/

theorem acceptEntries_shallow {id : StageId} {e : GatewayEvent} {h : Hub}
    (hends : (h.accept behaviour id e).2 ≠ .tooDeep) (t : Nat) :
    ∀ k ∈ acceptEntries behaviour id e h t, ¬ k.Deep :=
  (passEntries_sounded (deliverEntries_sounded behaviour h.depthLimit) id e h t).clear hends

theorem dispatchEntries_shallow {e : GatewayEvent} {h : Hub}
    (hends : (h.dispatch behaviour e).2 ≠ .tooDeep) (t : Nat) :
    ∀ k ∈ dispatchEntries behaviour e h t, ¬ k.Deep :=
  (emissionEntries_sounded (deliverEntries_sounded behaviour h.depthLimit)
    (.listeners e.category) e h t).clear hends

theorem acceptAllEntries_shallow (hconfined : Confined behaviour (¬ ·.Emits) kind) (id : StageId) :
    ∀ (es : List GatewayEvent) (h : Hub) (t : Nat), h.Only kind →
      (h.acceptAll behaviour id es).1.Acyclic →
      (h.acceptAll behaviour id es).1.stages.size < h.stages.size + 10000 →
      ∀ k ∈ acceptAllEntries behaviour id es h t, ¬ k.Deep
  | [], _, _, _, _, _, _, hk => (List.not_mem_nil hk).elim
  | e :: rest, h, t, honly, hacyclic, hfew, k, hk => by
      have hnext : (h.accept behaviour id e).1.Grows (h.acceptAll behaviour id (e :: rest)).1 := by
        rw [acceptAll]
        split
        · next h₁ hdone =>
          rw [hdone]
          exact acceptAll_grows behaviour id rest h₁
        · exact .refl _
      have hfirst := acceptEntries_shallow (accept_ends_of_few hconfined id e honly
        (hnext.acyclic hacyclic) (Nat.lt_of_le_of_lt hnext.size_le hfew)) t
      have honly₁ := (accept_keeps_confined hconfined unbroken_trivial id e honly trivial).1
      have hgrows : h.Grows (h.accept behaviour id e).1 :=
        pass_grows (deliver_grows behaviour h.depthLimit) id e h
      rw [acceptAllEntries] at hk
      rw [acceptAll] at hacyclic hfew
      rcases haccept : h.accept behaviour id e with ⟨h₁, o⟩
      rw [haccept] at hk hacyclic hfew honly₁ hgrows
      cases o with
      | done =>
          rcases List.mem_append.mp hk with hk | hk
          · exact hfirst k hk
          · exact acceptAllEntries_shallow hconfined id rest h₁ _ honly₁ hacyclic
              (Nat.lt_of_lt_of_le hfew (Nat.add_le_add_right hgrows.size_le _)) k hk
      | fault f => exact hfirst k hk
      | tooDeep => exact hfirst k hk

theorem stepEntries_shallow (hconfined : Confined behaviour (¬ ·.Emits) kind) {h : Hub}
    (honly : h.Only kind) {s : HubStep} (hacyclic : (h.step behaviour s).1.Acyclic)
    (hfew : s.Emits → (h.step behaviour s).1.stages.size < h.stages.size + 10000) (t : Nat) :
    ∀ k ∈ h.stepEntries behaviour t s, ¬ k.Deep := by
  intro k hk
  by_cases hemits : s.Emits
  · have hfew := hfew hemits
    cases s with
    | accept stage e =>
        rw [stepEntries] at hk
        rw [step, withStage] at hacyclic hfew
        cases hfind : h.find? stage with
        | error f =>
            rw [hfind] at hk
            exact absurd hk List.not_mem_nil
        | ok id =>
            rw [hfind] at hk hacyclic hfew
            exact acceptEntries_shallow (accept_ends_of_few hconfined id e honly hacyclic hfew) t k
              hk
    | acceptAll stage es =>
        rw [stepEntries] at hk
        rw [step, withStage] at hacyclic hfew
        cases hfind : h.find? stage with
        | error f =>
            rw [hfind] at hk
            exact absurd hk List.not_mem_nil
        | ok id =>
            rw [hfind] at hk hacyclic hfew
            exact acceptAllEntries_shallow hconfined id es h t honly hacyclic hfew k hk
    | dispatch e =>
        exact dispatchEntries_shallow (serve_ends_of_few hconfined (honly (.listeners e.category)) e
          honly hacyclic hfew) t k hk
    | _ => exact hemits.elim
  · have hentries : h.stepEntries behaviour t s = [⟨.appended (s.appends h), h⟩] := by
      cases s with
      | accept | acceptAll | dispatch => exact absurd trivial hemits
      | _ => rfl
    rw [hentries] at hk
    rw [List.mem_singleton.mp hk]
    rintro ⟨n, hn⟩
    cases hn

/-- No step of a run has consumers append ten thousand stages or more. -/
def Modest (behaviour : Behaviour) : List HubStep → Hub → Prop
  | [], _ => True
  | s :: rest, h =>
    (s.Emits → (h.step behaviour s).1.stages.size < h.stages.size + 10000)
      ∧ Modest behaviour rest (h.step behaviour s).1

theorem runEntries_shallow (hconfined : Confined behaviour (¬ ·.Emits) kind) :
    ∀ (steps : List HubStep) (h : Hub) (t : Nat), h.Only kind → (∀ s ∈ steps, s.OfKind kind) →
      (h.run behaviour steps).Acyclic → Modest behaviour steps h →
      ∀ k ∈ runEntries behaviour steps h t, ¬ k.Deep
  | [], _, _, _, _, _, _, _, hk => (List.not_mem_nil hk).elim
  | s :: rest, h, t, honly, hkind, hacyclic, ⟨hfew, hmodest⟩, k, hk => by
      have honly₁ := (step_keeps_confined hconfined unbroken_trivial (hkind s List.mem_cons_self)
        (fun _ => trivial) honly trivial).1
      have hstep : (h.step behaviour s).1.Acyclic :=
        (run_grows behaviour rest _).acyclic hacyclic
      rcases List.mem_append.mp hk with hk | hk
      · exact stepEntries_shallow hconfined honly hstep hfew t k hk
      · exact runEntries_shallow hconfined rest _ _ honly₁
          (fun s hs => hkind s (List.mem_cons_of_mem _ hs)) hacyclic hmodest k hk

/-- Consumers that append no stages leave a run modest. -/
theorem modest_of_plain (hconfined : Confined behaviour Act.Plain kind) :
    ∀ (steps : List HubStep) (h : Hub), h.Only kind → (∀ s ∈ steps, s.OfKind kind) →
      Modest behaviour steps h
  | [], _, _, _ => trivial
  | s :: rest, h, honly, hkind => by
      have hs : s.OfKind kind := hkind s List.mem_cons_self
      have honly₁ := (step_keeps_confined hconfined unbroken_trivial hs (fun _ => trivial) honly
        trivial).1
      refine ⟨fun hemits => ?_, modest_of_plain hconfined rest _ honly₁
        fun s hs => hkind s (List.mem_cons_of_mem _ hs)⟩
      have hsame := (step_keeps_confined hconfined (unbroken_sameLinks h) hs
        (fun hnot => absurd hemits hnot) honly (.refl h)).2
      rw [hsame.size]
      omega

end

end Hub

/-- Nothing but a fault cuts an emission of a chronicle short: it visits all sinks that its source
had when it began, or under the policy that fails fast up to the first that breaks off. -/
structure CutByFaults (l : List Entry) : Prop where
  returns : ∀ n, Outcome.tooDeep ∉ returns n l
  emissions : ∀ {n : Nat} {source e g}, l[n]? = some ⟨.began source e, g⟩ →
    visits n l = (g.sinksOf source).map (·, e)
      ∨ g.policyOf source = .failFast ∧ ∃ f, (GatewayClient.returns n l).getLast? = some (.fault f)

theorem Tells.cutByFaults {h h' : Hub} {l : List Entry} (htells : Tells h l h')
    (hshallow : ∀ k ∈ l, ¬ k.Deep) : CutByFaults l := by
  have hreturns : ∀ n, Outcome.tooDeep ∉ returns n l := by
    intro n hmem
    obtain ⟨k, hk, hdeep⟩ := List.mem_filterMap.mp hmem
    split at hdeep
    · next m o hm =>
      split at hdeep
      · cases hdeep
        exact hshallow k hk ⟨m, hm⟩
      · cases hdeep
    · cases hdeep
  refine ⟨hreturns, fun {n source e g} hn => ?_⟩
  have hemission := htells.emissions hn
  rcases hemission.all_or_cut with hall | ⟨o, hlast, hcut⟩
  · left
    rw [hemission.visits_eq, hall, List.take_length]
  · right
    cases o with
    | done => exact hcut.elim
    | fault f => exact ⟨hcut, f, hlast⟩
    | tooDeep => exact absurd (List.mem_of_getLast? hlast) (hreturns n)

namespace Hub

/-- **Emissions visit snapshots.** In every run, whatever the consumers append while they are
called, each emission visits the sinks that its source had when the emission began, in order and
up to one whose visit cuts it short; what is appended meanwhile waits for the emissions that begin
afterwards; and sinks are only ever added at the end.

What cuts an emission short is a fault, unless deliveries nest deeper than there are stages and ten
thousand. As long as the graph has no cycles this takes consumers that feed events back, or that
append ten thousand stages during one step. -/
theorem run_visits_snapshots (behaviour : Behaviour) (steps : List HubStep) (h : Hub) :
    let l := runEntries behaviour steps h 0
    Tells h l (h.run behaviour steps)
      ∧ (∀ {i n : Nat} {g : Hub}, l[i]? = some ⟨.returned n .tooDeep, g⟩ →
        ∃ (m j : Nat) (source : Source) (e : GatewayEvent) (g₀ : Hub),
          l[m]? = some ⟨.began source e, g₀⟩ ∧ m ≤ n ∧ n < j ∧ j ≤ i
            ∧ (g₀.stages.size : Int) + 10000 < nesting ((l.take j).drop m))
      ∧ ∀ kind, h.Only kind → (∀ s ∈ steps, s.OfKind kind) → (h.run behaviour steps).Acyclic →
        Confined behaviour Act.Plain kind
          ∨ Confined behaviour (¬ ·.Emits) kind ∧ Modest behaviour steps h →
        CutByFaults l := by
  intro l
  have htells : Tells h l (h.run behaviour steps) := (runEntries_tells behaviour steps h 0).tells
  refine ⟨htells, fun hi => ?_, fun kind honly hkind hacyclic hconfined => ?_⟩
  · simpa only [Nat.zero_add] using (runEntries_deepWhereCut behaviour steps h 0).deep hi
  · obtain ⟨hsilent, hmodest⟩ : Confined behaviour (¬ ·.Emits) kind ∧ Modest behaviour steps h := by
      rcases hconfined with hplain | hmodest
      · exact ⟨hplain.mono Act.Plain.not_emits, modest_of_plain hplain steps h honly hkind⟩
      · exact hmodest
    exact htells.cutByFaults (runEntries_shallow hsilent steps h 0 honly hkind hacyclic hmodest)

/-- A pipeline whose first consumer appends another one to the stage that is serving it. -/
def latecoming : List HubStep :=
  [.start "s" .failFast,
   .consume "s" "first" fun _ => [.addConsumer "s" "late" fun _ => []],
   .acceptAll "s" [⟨.resume, 0, .null⟩, ⟨.resume, 1, .null⟩]]

/-- The consumer that a call appends gets the events that come after it. -/
theorem run_visits_snapshots_latecoming :
    CutByFaults (runEntries Consumer.acts latecoming {} 0)
      ∧ ((run Consumer.acts latecoming {}).received.map fun r => (r.consumer, r.event.shard))
        = [("first", 0), ("first", 1), ("late", 1)] := by
  obtain ⟨-, -, hcut⟩ := run_visits_snapshots Consumer.acts latecoming {}
  refine ⟨hcut _ (only_empty _) ?_ (acyclic_of_ascending (by decide))
    (.inl (confined_of_hereditary Act.Plain)), rfl⟩
  intro s hs
  simp only [latecoming, List.mem_cons, List.not_mem_nil, or_false] at hs
  rcases hs with rfl | rfl | rfl
  · rintro _ _ ⟨⟩
  · rintro _ _ ⟨⟩ id e a ha
    rw [List.mem_singleton.mp ha]
    refine .intro trivial ?_
    rintro _ _ ⟨⟩ e a ha
    exact absurd ha List.not_mem_nil
  · rintro _ _ ⟨⟩

end Hub

end GatewayClient
