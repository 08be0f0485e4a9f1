import GatewayClient.Proofs.Delivery.Nesting
import GatewayClient.Proofs.Delivery.Registration

/-!
# Dispatching to listeners

A dispatch is an emission whose sinks are the listeners of a category, so what is known of emissions
tells whom it calls. It remains to read the listeners off the registrations that were made
(`registrationsIn`), which a chronicle tells in their order, and to say how a dispatch ends: as the
last of its calls (`emit_outcome`). Registrations that listeners make stand in the chronicle of the
dispatch itself, so the next one finds them behind those of before, however this one ended.

Other listeners are called only by a dispatch inside the dispatch. Where consumers emit nothing
there is none (`deliver_discreet`).
-/

namespace GatewayClient

/-- The registration that an addition is, if it is one. -/
def registration? (m : Source × Sink) : Option Registration :=
  match m.1 with
  | .listeners c => some (c, m.2)
  | .stage _ => none

/-- The registrations in the course of a chronicle, in order. -/
def registrationsIn (l : List Entry) : List Registration :=
  l.flatMap fun k =>
    match k.moment with
    | .appended more => more.filterMap registration?
    | _ => []

@[simp] theorem registrationsIn_append (l l' : List Entry) :
    registrationsIn (l ++ l') = registrationsIn l ++ registrationsIn l' := by simp [registrationsIn]

theorem registeredFor_append (category : ListenerCategory) (regs regs' : List Registration) :
    registeredFor category (regs ++ regs') =
      registeredFor category regs ++ registeredFor category regs' := by
  simp [registeredFor]

/-- What the listeners of a category gain are its registrations. -/
theorem appended_listeners (c : ListenerCategory) (l : List Entry) :
    appended (.listeners c) l = registeredFor c (registrationsIn l) := by
  have hto : ∀ more : Additions,
      more.to (.listeners c) = registeredFor c (more.filterMap registration?) := by
    intro more
    induction more with
    | nil => rfl
    | cons m rest ih =>
        obtain ⟨source, sink⟩ := m
        cases source with
        | stage id => simpa [Additions.to, registration?, List.filterMap_cons] using ih
        | listeners c' =>
            by_cases hc : c' = c <;>
              simpa [Additions.to, registeredFor, registration?, List.filterMap_cons, hc] using ih
  induction l with
  | nil => rfl
  | cons k rest ih =>
      have hcons : ∀ l : List Entry, k :: l = [k] ++ l := fun _ => rfl
      rw [hcons, appended_append, registrationsIn_append, registeredFor_append, ih]
      obtain ⟨moment, hub⟩ := k
      cases moment <;> simp [appended, registrationsIn, hto, registeredFor]

/-- The categories whose listeners are served in the course of a chronicle, in the order in which
that begins. -/
def announced (l : List Entry) : List ListenerCategory :=
  l.filterMap fun k =>
    match k.moment with
    | .began (.listeners c) _ => some c
    | _ => none

@[simp] theorem announced_append (l l' : List Entry) :
    announced (l ++ l') = announced l ++ announced l' := by simp [announced]

theorem announced_visit (n : Nat) (sink : Sink) (e : GatewayEvent) (h : Hub) (inside : List Entry)
    (r : Hub × Outcome) : announced (Hub.visit n sink e h inside r) = announced inside := by
  simp [announced, Hub.visit]

namespace Hub

/-! ## How an emission ends -/

section

variable {courier : Courier} {scribe : Scribe} (hfaithful : Faithful courier scribe)
include hfaithful

/-- An emission that the first fault ends ends as the last of its visits. -/
theorem emit_outcome {n : Nat} (e : GatewayEvent) :
    ∀ (sinks : List Sink) (h : Hub) {t : Nat}, n < t →
      (emit courier .failFast e sinks h).2 =
        (returns n (visitEntries courier scribe n .failFast e sinks h t)).getLast?.getD .done
  | [], _, _, _ => rfl
  | sink :: rest, h, t, hn => by
      rcases hcall : courier sink e h with ⟨h₁, o⟩
      have hreturns := (visit_tells hfaithful hn hcall (.of_eq rfl rfl rfl)).returns_eq
      rw [visitEntries, emit, hcall]
      cases o with
      | done =>
          have hrest := fun k : Nat => emit_outcome e rest h₁ (Nat.lt_of_lt_of_le hn
            (Nat.le_add_right t k))
          rw [returns_append, hreturns, List.singleton_append, List.getLast?_cons]
          exact hrest _
      | tooDeep => rw [hreturns]; rfl
      | fault f => rw [hreturns]; rfl

end

/-! ## Whom a dispatch calls besides -/

section

variable {behaviour : Behaviour} {allowed : Act → Prop} {kind : Consumer → Prop}

/-- A courier that keeps the kind of the sinks and has no listeners served. -/
structure Discreet (kind : Consumer → Prop) (courier : Courier) (scribe : Scribe) : Prop where
  only : KeepsConfined kind (fun _ => True) courier
  announced : ∀ sink e h t, sink.OfKind kind → h.Only kind →
    GatewayClient.announced (scribe sink e h t) = []

section

variable {courier : Courier} {scribe : Scribe} (hdiscreet : Discreet kind courier scribe)
include hdiscreet

theorem visitEntries_announced {n : Nat} (policy : DeliveryPolicy) (e : GatewayEvent) :
    ∀ (sinks : List Sink) (h : Hub) (t : Nat), (∀ sink ∈ sinks, sink.OfKind kind) →
      h.Only kind → announced (visitEntries courier scribe n policy e sinks h t) = []
  | [], _, _, _, _ => rfl
  | sink :: rest, h, t, hsinks, honly => by
      have hsink := hsinks sink List.mem_cons_self
      have hrest := fun s hs => hsinks s (List.mem_cons_of_mem _ hs)
      have honly₁ := (hdiscreet.only sink e h hsink honly trivial).1
      have hvisit : ∀ r, announced (visit n sink e h (scribe sink e h (t + 1)) r) = [] := by
        intro r
        rw [announced_visit, hdiscreet.announced sink e h (t + 1) hsink honly]
      rw [visitEntries]
      rcases hcall : courier sink e h with ⟨h₁, o⟩
      rw [hcall] at honly₁
      cases o with
      | done =>
          rw [announced_append, hvisit]
          exact visitEntries_announced policy e rest h₁ _ hrest honly₁
      | tooDeep => exact hvisit _
      | fault f =>
          cases policy with
          | failFast => exact hvisit _
          | isolate =>
              rw [announced_append, hvisit]
              exact visitEntries_announced .isolate e rest _ _ hrest honly₁

theorem passEntries_announced (id : StageId) (e : GatewayEvent) {h : Hub} (t : Nat)
    (honly : h.Only kind) : announced (passEntries courier scribe id e h t) = [] := by
  unfold passEntries
  split
  · rfl
  · split
    · next out hout =>
      exact visitEntries_announced hdiscreet _ out _ h _ (honly (.stage id)) honly
    · rfl

end

/-- A consumer that emits nothing has no listeners served. -/
theorem performAllEntries_announced (courier : Courier) (scribe : Scribe) (c : Consumer) :
    ∀ (acts : List Act) (h : Hub) (t : Nat), (∀ a ∈ acts, ¬ a.Emits) →
      announced (performAllEntries courier scribe c acts h t) = []
  | [], _, _, _ => rfl
  | a :: rest, h, t, hacts => by
      have hfirst : announced (performEntries courier scribe c h t a) = [] := by
        have hemits := hacts a List.mem_cons_self
        cases a with
        | feed stage e => exact absurd trivial hemits
        | dispatch e => exact absurd trivial hemits
        | _ => rfl
      rw [performAllEntries]
      split
      · rw [announced_append, hfirst]
        exact performAllEntries_announced courier scribe c rest _ _ fun a ha =>
          hacts a (List.mem_cons_of_mem _ ha)
      · exact hfirst

/-- Where consumers emit nothing, a delivery has no listeners served. -/
theorem deliver_discreet (hconfined : Confined behaviour (¬ ·.Emits) kind) :
    ∀ depth, Discreet kind (deliver behaviour depth) (deliverEntries behaviour depth)
  | 0 => ⟨deliver_keeps_confined hconfined unbroken_trivial 0, fun _ _ _ _ _ _ => rfl⟩
  | depth + 1 => by
      have ih := deliver_discreet hconfined depth
      refine ⟨deliver_keeps_confined hconfined unbroken_trivial (depth + 1), ?_⟩
      intro sink e h t hsink honly
      cases sink with
      | stage id => exact passEntries_announced ih id e t honly
      | consumer c =>
          exact performAllEntries_announced _ _ c _ _ t (hconfined.acts hsink e _)

end

/-! ## Dispatches -/

/-- A dispatch comes to an end where there are no cycles and consumers only append. -/
theorem dispatch_ends {behaviour : Behaviour} {kind : Consumer → Prop} {h : Hub}
    (hacyclic : h.Acyclic) (hconfined : Confined behaviour Act.Plain kind) (honly : h.Only kind)
    (e : GatewayEvent) : (h.dispatch behaviour e).2 ≠ .tooDeep :=
  serve_ends hacyclic hconfined honly (honly (.listeners e.category)) e

/-- The listeners go on from those that there were by the registrations of the chronicle. -/
theorem listenersFor_of_whole {t : Nat} {h h' : Hub} {l : List Entry} (hwhole : Whole t h l h')
    {regs : List Registration} (hregs : ∀ c, h.registry.listenersFor c = registeredFor c regs)
    (c : ListenerCategory) :
    h'.registry.listenersFor c = registeredFor c (regs ++ registrationsIn l) := by
  rw [registeredFor_append, ← hregs, ← appended_listeners]
  exact hwhole.grown (.listeners c)

/-- The dispatch of an event calls listeners in order, up to the first that breaks off. -/
theorem dispatch_emission (behaviour : Behaviour) (e : GatewayEvent) {h : Hub}
    {regs : List Registration} (hregs : ∀ c, h.registry.listenersFor c = registeredFor c regs) :
    Emission .failFast e (registeredFor e.category regs)
      (visits 0 (dispatchEntries behaviour e h 0))
      (returns 0 (dispatchEntries behaviour e h 0)) := by
  have hwhole := stepEntries_tells behaviour h 0 (.dispatch e)
  rw [← hregs]
  exact hwhole.tells.emissions (List.getElem?_cons_zero ..)

/-- **Dispatch calls the listeners that were registered.** Whatever was done with a hub before, a
dispatch calls the listeners that were registered for the category of the event when it began, once
for each registration and in the order of the registrations, up to the first that breaks off, as
which the dispatch then ends. Registrations that are made meanwhile are kept however it ends, and
every later dispatch finds them behind those of before. Where consumers emit nothing, no other
listeners are served, and where besides there are no cycles the dispatch comes to an end. -/
theorem dispatch_calls_registered (behaviour : Behaviour) (before : List HubStep)
    (e : GatewayEvent) :
    let h := run behaviour before {}
    let past := registrationsIn (runEntries behaviour before {} 0)
    let l := dispatchEntries behaviour e h 0
    let r := h.dispatch behaviour e
    Emission .failFast e (registeredFor e.category past) (visits 0 l) (returns 0 l)
      ∧ r.2 = (returns 0 l).getLast?.getD .done
      ∧ r.1.received = h.received ++ receipts l
      ∧ (∀ c, r.1.registry.listenersFor c = registeredFor c (past ++ registrationsIn l))
      ∧ (∀ later e', Emission .failFast e'
        (registeredFor e'.category
          (past ++ registrationsIn l ++ registrationsIn (runEntries behaviour later r.1 0)))
        (visits 0 (dispatchEntries behaviour e' (run behaviour later r.1) 0))
        (returns 0 (dispatchEntries behaviour e' (run behaviour later r.1) 0)))
      ∧ ∀ kind, h.Only kind →
        (Confined behaviour (¬ ·.Emits) kind → announced l = [e.category])
        ∧ (Confined behaviour Act.Plain kind → h.Acyclic → r.2 ≠ .tooDeep) := by
  intro h past l r
  have hempty : ∀ c, ({} : Hub).registry.listenersFor c = registeredFor c [] := fun _ => rfl
  have hregs : ∀ c, h.registry.listenersFor c = registeredFor c past :=
    listenersFor_of_whole (runEntries_tells behaviour before {} 0) hempty
  have hwhole : Whole 0 h l r.1 := stepEntries_tells behaviour h 0 (.dispatch e)
  have hnext : ∀ c, r.1.registry.listenersFor c = registeredFor c (past ++ registrationsIn l) :=
    listenersFor_of_whole hwhole hregs
  refine ⟨dispatch_emission behaviour e hregs, ?_, hwhole.received, hnext, fun later e' => ?_,
    fun kind honly => ⟨fun hconfined => ?_, fun hconfined hacyclic => ?_⟩⟩
  · exact emit_outcome (deliver_faithful behaviour h.depthLimit) e _ h Nat.zero_lt_one
  · exact dispatch_emission behaviour e'
      (listenersFor_of_whole (runEntries_tells behaviour later r.1 0) hnext)
  · have hrest := visitEntries_announced (deliver_discreet hconfined h.depthLimit) (n := 0)
      .failFast e _ h 1 (honly (.listeners e.category)) honly
    exact congrArg (e.category :: ·) hrest
  · exact dispatch_ends hacyclic hconfined honly e

/-- One consumer registers two others when it is called, another one breaks off. -/
def enlisting : Behaviour := fun c _ _ =>
  if c.name = "a" then
    [.register .resume "late" Reaction.none, .register .messageCreate "other" Reaction.none]
  else if c.name = "b" then [.breakOff (.text "over")]
  else []

theorem confined_enlisting (allowed : Act → Prop) (hbreakOff : ∀ f, allowed (.breakOff f))
    (hregister : ∀ category name reaction, allowed (.register category name reaction)) :
    Confined enlisting allowed fun _ => True where
  acts := by
    intro c _ e h a ha
    unfold enlisting at ha
    split at ha
    · rcases List.mem_pair.mp ha with rfl | rfl <;> exact hregister ..
    · split at ha
      · rw [List.mem_singleton.mp ha]
        exact hbreakOff _
      · cases ha
  newcomers _ _ _ _ _ _ _ _ _ := trivial

/-- The third listener is not called any more, and what the first one registered is kept. -/
theorem dispatch_calls_registered_enlisting :
    let before : List HubStep := [.register .resume "a" .none, .register .messageCreate "x" .none,
      .register .resume "b" .none, .register .resume "c" .none]
    let h := run enlisting before {}
    let r := h.dispatch enlisting ⟨.resume, 0, .null⟩
    ((visits 0 (dispatchEntries enlisting ⟨.resume, 0, .null⟩ h 0)).map fun v => v.1.name)
        = ["a", "b"]
      ∧ r.2 = .fault (.text "over")
      ∧ (r.1.registry.listenersFor .resume).map Sink.name = ["a", "b", "c", "late"]
      ∧ (r.1.registry.listenersFor .messageCreate).map Sink.name = ["x", "other"]
      ∧ announced (dispatchEntries enlisting ⟨.resume, 0, .null⟩ h 0) = [.resume] := by
  intro before h r
  obtain ⟨hcalls, hends, -, hkept, -, hothers⟩ :=
    dispatch_calls_registered enlisting before ⟨.resume, 0, .null⟩
  refine ⟨?_, hends.trans rfl, ?_, ?_, (hothers _ (only_any h)).1 ?_⟩
  · rw [hcalls.visits_eq]
    rfl
  · rw [hkept]
    rfl
  · rw [hkept]
    rfl
  · exact confined_enlisting _ (fun _ => id) fun _ _ _ => id

end Hub

end GatewayClient
