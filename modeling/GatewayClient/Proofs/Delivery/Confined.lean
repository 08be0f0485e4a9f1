import GatewayClient.Proofs.Delivery.Chronicle

/-!
# Consumers that act within bounds

A property of hubs that every act of the consumers keeps is kept by a whole delivery, however deep
it nests. What is asked of the consumers is told once: those of a kind act in allowed ways only, and
the consumers that they make are of that kind again (`Confined`). What is asked of the property is
that it outlives a receipt, a note and an allowed act that emits nothing (`Unbroken`); an act that
emits is a delivery again. `deliver_keeps_confined` is the induction on the depth.
-/

namespace GatewayClient

/-- The name and the reaction of the consumer that an act makes. -/
def Act.newcomer? : Act → Option (String × Reaction)
  | .addConsumer _ name reaction => some (name, reaction)
  | .addConsumerOnce _ name reaction => some (name, reaction)
  | .addBranch _ _ name reaction => some (name, reaction)
  | .register _ name reaction => some (name, reaction)
  | _ => none

/-- A consumer is of a kind; a stage is no consumer. -/
def Sink.OfKind (kind : Consumer → Prop) : Sink → Prop
  | .stage _ => True
  | .consumer c => kind c

/-- Consumers of a kind act in allowed ways only and make consumers of that kind only. -/
structure Confined (behaviour : Behaviour) (allowed : Act → Prop) (kind : Consumer → Prop) :
    Prop where
  acts : ∀ {c}, kind c → ∀ e h, ∀ a ∈ behaviour c e h, allowed a
  newcomers : ∀ {c}, kind c → ∀ e h, ∀ a ∈ behaviour c e h, ∀ {name reaction},
    a.newcomer? = some (name, reaction) → ∀ id, kind ⟨id, name, reaction⟩

theorem Confined.mono {behaviour : Behaviour} {allowed allowed' : Act → Prop}
    {kind : Consumer → Prop} (hconfined : Confined behaviour allowed kind)
    (hmono : ∀ {a}, allowed a → allowed' a) : Confined behaviour allowed' kind :=
  ⟨fun hc e h a ha => hmono (hconfined.acts hc e h a ha), hconfined.newcomers⟩

/-- An act that is allowed, and so are the acts of the consumer that it makes, and so on. -/
inductive Act.Hereditary (allowed : Act → Prop) : Act → Prop
  | intro {a : Act} : allowed a →
      (∀ {name reaction}, a.newcomer? = some (name, reaction) →
        ∀ e, ∀ a' ∈ reaction e, Hereditary allowed a') →
      Hereditary allowed a

/-- Consumers that follow their reactions are confined if the acts of these are allowed, however
deep the reactions nest. -/
theorem confined_of_hereditary (allowed : Act → Prop) :
    Confined Consumer.acts allowed fun c => ∀ e, ∀ a ∈ c.reaction e, a.Hereditary allowed where
  acts hc e _ a ha := by
    obtain ⟨hallowed, -⟩ := hc e a ha
    exact hallowed
  newcomers hc e _ a ha _ _ hnew _ := by
    obtain ⟨-, hreaction⟩ := hc e a ha
    exact hreaction hnew

namespace Hub

/-- All consumers among the sinks and listeners are of a kind. -/
def Only (kind : Consumer → Prop) (h : Hub) : Prop :=
  ∀ source, ∀ sink ∈ h.sinksOf source, sink.OfKind kind

/-- A property of hubs that outlives receipts, notes and allowed acts. -/
structure Unbroken (allowed : Act → Prop) (inv : Hub → Prop) : Prop where
  receive : ∀ {h}, inv h → ∀ name e, inv (h.receive name e)
  note : ∀ {h}, inv h → ∀ f, inv (h.note (contained f))
  act : ∀ {h}, inv h → ∀ {a}, allowed a → ¬ a.Emits → ∀ courier c, inv (h.perform courier c a).1

theorem unbroken_trivial {allowed : Act → Prop} : Unbroken allowed fun _ => True :=
  ⟨fun _ _ _ => trivial, fun _ _ => trivial, fun _ _ _ _ _ _ => trivial⟩

/-! ## Of which kind the sinks are -/

section

variable {kind : Consumer → Prop} {h h' : Hub}

theorem Only.of_gains {more : Additions} (honly : h.Only kind) (hgains : h.Gains more h')
    (hmore : ∀ k ∈ more, k.2.OfKind kind) : h'.Only kind := by
  intro source sink hsink
  rw [hgains.sinks] at hsink
  rcases List.mem_append.mp hsink with hold | hnew
  · exact honly source sink hold
  · obtain ⟨k, hk, rfl⟩ := List.mem_map.mp hnew
    exact hmore k (List.mem_filter.mp hk).1

theorem mem_wherever {stage : StageRef} {next : StageId → Additions} {k : Source × Sink}
    (hk : k ∈ h.wherever stage next) : ∃ id, h.locate? stage = .ok id ∧ k ∈ next id := by
  unfold wherever at hk
  split at hk
  · next id hid => exact ⟨id, hid, hk⟩
  · cases hk

theorem ofKind_of_mem_attached {id : StageId} {sink : Sink} {k : Source × Sink}
    (hk : k ∈ h.attached id sink) (hsink : sink.OfKind kind) : k.2.OfKind kind := by
  unfold attached at hk
  split at hk
  · rwa [List.mem_singleton.mp hk]
  · cases hk

theorem ofKind_of_mem_consumed {id : StageId} {name : String} {reaction : Reaction}
    {k : Source × Sink} (hk : k ∈ h.consumed id name reaction)
    (hnew : ∀ id, kind ⟨id, name, reaction⟩) : k.2.OfKind kind :=
  ofKind_of_mem_attached hk (hnew h.consumers)

theorem ofKind_of_mem_derived {parent : StageId} {k : Source × Sink}
    (hk : k ∈ h.derived parent) : k.2.OfKind kind := by
  unfold derived at hk
  split at hk
  · rw [List.mem_singleton.mp hk]
    trivial
  · cases hk

/-- What an act appends is of a kind if the consumer that it makes is. -/
theorem ofKind_of_mem_appends {c : Consumer} {a : Act}
    (hnew : ∀ {name reaction}, a.newcomer? = some (name, reaction) →
      ∀ id, kind ⟨id, name, reaction⟩) {k : Source × Sink} (hk : k ∈ a.appends c h) :
    k.2.OfKind kind := by
  cases a with
  | addConsumer stage name reaction =>
      obtain ⟨id, -, hk⟩ := mem_wherever hk
      exact ofKind_of_mem_consumed hk (hnew rfl)
  | addConsumerOnce stage name reaction =>
      rw [Act.appends] at hk
      split at hk
      · cases hk
      · obtain ⟨id, -, hk⟩ := mem_wherever hk
        exact ofKind_of_mem_consumed hk (hnew rfl)
  | addBranch stage operation name reaction =>
      obtain ⟨id, -, hk⟩ := mem_wherever hk
      rcases List.mem_append.mp hk with hk | hk
      · exact ofKind_of_mem_derived hk
      · exact ofKind_of_mem_consumed hk (hnew rfl)
  | addStage stage operation =>
      obtain ⟨id, -, hk⟩ := mem_wherever hk
      exact ofKind_of_mem_derived hk
  | attach stage child =>
      obtain ⟨id, -, hk⟩ := mem_wherever hk
      obtain ⟨c, -, hk⟩ := mem_wherever hk
      exact ofKind_of_mem_attached hk trivial
  | register category name reaction =>
      rw [List.mem_singleton.mp hk]
      exact hnew rfl _
  | breakOff f => cases hk
  | feed stage e => cases hk
  | dispatch e => cases hk

end

/-! ## A delivery keeps what its acts keep -/

section

variable {behaviour : Behaviour} {allowed : Act → Prop} {kind : Consumer → Prop} {inv : Hub → Prop}

/-- A courier that keeps the property and the kind of the sinks. -/
def KeepsConfined (kind : Consumer → Prop) (inv : Hub → Prop) (courier : Courier) : Prop :=
  ∀ sink e h, sink.OfKind kind → h.Only kind → inv h →
    (courier sink e h).1.Only kind ∧ inv (courier sink e h).1

section

variable {courier : Courier} (hinv : Unbroken allowed inv)
  (hcourier : KeepsConfined kind inv courier)
include hinv hcourier

theorem emit_keeps_confined (policy : DeliveryPolicy) (e : GatewayEvent) :
    ∀ (sinks : List Sink) (h : Hub), (∀ sink ∈ sinks, sink.OfKind kind) → h.Only kind → inv h →
      (emit courier policy e sinks h).1.Only kind ∧ inv (emit courier policy e sinks h).1
  | [], _, _, honly, hh => ⟨honly, hh⟩
  | sink :: rest, h, hsinks, honly, hh => by
      obtain ⟨honly₁, hh₁⟩ := hcourier sink e h (hsinks sink List.mem_cons_self) honly hh
      have hrest := fun s hs => hsinks s (List.mem_cons_of_mem _ hs)
      unfold emit
      split
      · next h₁ hcall =>
        rw [hcall] at honly₁ hh₁
        exact emit_keeps_confined policy e rest h₁ hrest honly₁ hh₁
      · next h₁ hcall =>
        rw [hcall] at honly₁ hh₁
        exact ⟨honly₁, hh₁⟩
      · next h₁ f hcall =>
        rw [hcall] at honly₁ hh₁
        cases policy with
        | failFast => exact ⟨honly₁, hh₁⟩
        | isolate =>
            exact emit_keeps_confined .isolate e rest (h₁.note (contained f)) hrest honly₁
              (hinv.note hh₁ f)

theorem pass_keeps_confined (id : StageId) (e : GatewayEvent) (h : Hub) (honly : h.Only kind)
    (hh : inv h) : (h.pass courier id e).1.Only kind ∧ inv (h.pass courier id e).1 := by
  unfold pass
  split
  · exact ⟨honly, hh⟩
  · next s hs =>
    have hsinks : ∀ sink ∈ s.sinks, sink.OfKind kind := fun sink hsink =>
      honly (.stage id) sink (by rwa [sinksOf, hs])
    split
    · exact ⟨honly, hh⟩
    · exact ⟨honly, hh⟩
    · exact emit_keeps_confined hinv hcourier _ _ _ h hsinks honly hh

section

variable (hconfined : Confined behaviour allowed kind) {c : Consumer} (hc : kind c)
  {e : GatewayEvent} {h₀ : Hub}
include hconfined hc

/-- An act of a confined consumer. What it emits is a delivery again. -/
theorem perform_keeps_confined {a : Act} (ha : a ∈ behaviour c e h₀) {h : Hub}
    (honly : h.Only kind) (hh : inv h) :
    (h.perform courier c a).1.Only kind ∧ inv (h.perform courier c a).1 := by
  by_cases hemits : a.Emits
  · cases a with
    | feed stage fed =>
        rw [perform, atStage]
        split
        · exact ⟨honly, hh⟩
        · exact pass_keeps_confined hinv hcourier _ fed h honly hh
    | dispatch fed =>
        exact emit_keeps_confined hinv hcourier .failFast fed _ h
          (honly (.listeners fed.category)) honly hh
    | _ => exact hemits.elim
  · exact ⟨honly.of_gains (perform_gains courier c h hemits) fun _ hk =>
      ofKind_of_mem_appends (hconfined.newcomers hc e h₀ a ha) hk,
      hinv.act hh (hconfined.acts hc e h₀ a ha) hemits courier c⟩

theorem performAll_keeps_confined :
    ∀ (acts : List Act) (h : Hub), acts ⊆ behaviour c e h₀ → h.Only kind → inv h →
      (performAll courier c acts h).1.Only kind ∧ inv (performAll courier c acts h).1
  | [], _, _, honly, hh => ⟨honly, hh⟩
  | a :: rest, h, hacts, honly, hh => by
      obtain ⟨ha, hrest⟩ := List.cons_subset.mp hacts
      have hfirst := perform_keeps_confined hinv hcourier hconfined hc ha honly hh
      unfold performAll
      split
      · next h₁ hdone =>
        rw [hdone] at hfirst
        exact performAll_keeps_confined rest h₁ hrest hfirst.1 hfirst.2
      · exact hfirst

end

end

/-- **A delivery keeps what confined consumers keep.** -/
theorem deliver_keeps_confined (hconfined : Confined behaviour allowed kind)
    (hinv : Unbroken allowed inv) :
    ∀ depth, KeepsConfined kind inv (deliver behaviour depth)
  | 0 => fun sink e h _ honly hh => by
      cases sink with
      | stage id => exact ⟨honly, hh⟩
      | consumer c => exact ⟨honly, hinv.receive hh c.name e⟩
  | depth + 1 => fun sink e h hsink honly hh => by
      have ih := deliver_keeps_confined hconfined hinv depth
      cases sink with
      | stage id => exact pass_keeps_confined hinv ih id e h honly hh
      | consumer c =>
          exact performAll_keeps_confined hinv ih hconfined hsink _ _ (List.Subset.refl _) honly
            (hinv.receive hh c.name e)

end

end Hub

/-! ## Steps -/

/-- The name and the reaction of the consumer that a step makes. -/
def HubStep.newcomer? : HubStep → Option (String × Reaction)
  | .consume _ name reaction => some (name, reaction)
  | .register _ name reaction => some (name, reaction)
  | _ => none

/-- The consumer that a step makes is of a kind. -/
def HubStep.OfKind (kind : Consumer → Prop) (s : HubStep) : Prop :=
  ∀ {name reaction}, s.newcomer? = some (name, reaction) → ∀ id, kind ⟨id, name, reaction⟩

namespace Hub

section

variable {kind : Consumer → Prop} {h : Hub}

theorem ofKind_of_mem_chained {operation : Operation} {k : Source × Sink} :
    ∀ {n : Nat} {id : StageId} {h : Hub}, k ∈ chained operation n id h → k.2.OfKind kind
  | n + 1, id, h, hk => by
      rcases List.mem_append.mp hk with hk | hk
      · exact ofKind_of_mem_derived hk
      · exact ofKind_of_mem_chained hk

theorem ofKind_of_mem_step {s : HubStep} (hs : s.OfKind kind) {k : Source × Sink}
    (hk : k ∈ s.appends h) : k.2.OfKind kind := by
  cases s with
  | derive parent name operation =>
      obtain ⟨id, -, hk⟩ := mem_wherever hk
      exact ofKind_of_mem_derived hk
  | chain parent name length operation =>
      obtain ⟨id, -, hk⟩ := mem_wherever hk
      exact ofKind_of_mem_chained hk
  | attach parent child =>
      obtain ⟨p, -, hk⟩ := mem_wherever hk
      obtain ⟨c, -, hk⟩ := mem_wherever hk
      exact ofKind_of_mem_attached hk trivial
  | consume parent consumer reaction =>
      obtain ⟨id, -, hk⟩ := mem_wherever hk
      exact ofKind_of_mem_consumed hk (hs rfl)
  | register category consumer reaction =>
      rw [List.mem_singleton.mp hk]
      exact hs rfl _
  | registerStage category child =>
      obtain ⟨id, -, hk⟩ := mem_wherever hk
      rw [List.mem_singleton.mp hk]
      trivial
  | _ => cases hk

end

section

variable {behaviour : Behaviour} {allowed : Act → Prop} {kind : Consumer → Prop} {inv : Hub → Prop}
  (hconfined : Confined behaviour allowed kind) (hinv : Unbroken allowed inv)
include hconfined hinv

theorem accept_keeps_confined (id : StageId) (e : GatewayEvent) {h : Hub} (honly : h.Only kind)
    (hh : inv h) : (h.accept behaviour id e).1.Only kind ∧ inv (h.accept behaviour id e).1 :=
  pass_keeps_confined hinv (deliver_keeps_confined hconfined hinv h.depthLimit) id e h honly hh

theorem acceptAll_keeps_confined (id : StageId) (es : List GatewayEvent) (h : Hub)
    (honly : h.Only kind) (hh : inv h) :
    (h.acceptAll behaviour id es).1.Only kind ∧ inv (h.acceptAll behaviour id es).1 := by
  induction es generalizing h with
  | nil => exact ⟨honly, hh⟩
  | cons e rest ih =>
      have hfirst := accept_keeps_confined hconfined hinv id e honly hh
      unfold acceptAll
      split
      · next h₁ hdone =>
        rw [hdone] at hfirst
        exact ih h₁ hfirst.1 hfirst.2
      · exact hfirst

/-- A step keeps the property if it does so while nothing is emitted. -/
theorem step_keeps_confined {h : Hub} {s : HubStep} (hs : s.OfKind kind)
    (hstep : ¬ s.Emits → inv (h.step behaviour s).1) (honly : h.Only kind) (hh : inv h) :
    (h.step behaviour s).1.Only kind ∧ inv (h.step behaviour s).1 := by
  have hdeliver := deliver_keeps_confined hconfined hinv h.depthLimit
  by_cases hemits : s.Emits
  · cases s with
    | accept stage e =>
        rw [step, withStage]
        split
        · exact ⟨honly, hh⟩
        · exact accept_keeps_confined hconfined hinv _ e honly hh
    | acceptAll stage es =>
        rw [step, withStage]
        split
        · exact ⟨honly, hh⟩
        · exact acceptAll_keeps_confined hconfined hinv _ es h honly hh
    | dispatch e =>
        exact emit_keeps_confined hinv hdeliver .failFast e _ h (honly (.listeners e.category))
          honly hh
    | _ => exact hemits.elim
  · exact ⟨honly.of_gains (step_gains behaviour h hemits) fun _ hk => ofKind_of_mem_step hs hk,
      hstep hemits⟩

end

end Hub

end GatewayClient
