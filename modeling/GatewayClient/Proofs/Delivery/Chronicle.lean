import GatewayClient.Pipeline.Build

/-!
# Chronicles of runs

A chronicle tells a run moment by moment: which emissions began, which sinks each of them visited
and how the visits ended, and which sinks were appended in between. With each moment stands the hub
as it was then. An emission goes by the number of the moment at which it began.

Each part of a delivery has the entries that it leaves in the chronicle (`visitEntries` to
`runEntries`), told along the part itself: what it calls, and the hubs in which it calls it, are
those of the part. What an act or a step appends is told apart from how it is done (`Act.appends`,
`HubStep.appends`), and the lemmas on `Gains` say that the two agree.
-/

namespace GatewayClient

/-- What sinks are appended to: a stage, or the listeners of a category. -/
inductive Source
  | stage (id : StageId)
  | listeners (category : ListenerCategory)
deriving DecidableEq

abbrev Additions := List (Source × Sink)

def Additions.to (source : Source) (more : Additions) : List Sink :=
  (more.filter (·.1 = source)).map (·.2)

theorem Additions.to_append (source : Source) (more more' : Additions) :
    Additions.to source (more ++ more') = more.to source ++ more'.to source := by
  simp [Additions.to]

namespace Hub

/-- The sinks of a source, in the order in which they were appended. -/
def sinksOf (h : Hub) : Source → List Sink
  | .stage id =>
    match h.stages[id]? with
    | some s => s.sinks
    | none => []
  | .listeners category => h.registry.listenersFor category

/-- What happens to the remaining sinks of a source when a visit breaks off. -/
def policyOf (h : Hub) : Source → DeliveryPolicy
  | .stage id =>
    match h.stages[id]? with
    | some s => s.policy
    | none => .failFast
  | .listeners _ => .failFast

/-! ## What is appended -/

/-- A hub that comes of another one by appending sinks, while nothing is received. -/
structure Gains (h : Hub) (more : Additions) (h' : Hub) : Prop where
  sinks : ∀ source, h'.sinksOf source = h.sinksOf source ++ more.to source
  received : h'.received = h.received

theorem Gains.of_eq {h h' : Hub} (hstages : h'.stages = h.stages)
    (hregistry : h'.registry = h.registry) (hreceived : h'.received = h.received) :
    h.Gains [] h' := by
  refine ⟨fun source => ?_, hreceived⟩
  cases source <;> simp [sinksOf, hstages, hregistry, Additions.to]

theorem Gains.trans {h h' h'' : Hub} {more more' : Additions} (hfirst : h.Gains more h')
    (hsecond : h'.Gains more' h'') : h.Gains (more ++ more') h'' :=
  ⟨fun source => by
    rw [hsecond.sinks, hfirst.sinks, Additions.to_append, List.append_assoc],
   hsecond.received.trans hfirst.received⟩

/-- What attaching a sink appends: nothing if there is no such stage. -/
def attached (id : StageId) (sink : Sink) (h : Hub) : Additions :=
  if id < h.stages.size then [(.stage id, sink)] else []

/-- What deriving a stage appends. The stage can be its own parent, as it is there by then. -/
def derived (parent : StageId) (h : Hub) : Additions :=
  if parent ≤ h.stages.size then [(.stage parent, .stage h.stages.size)] else []

def consumed (id : StageId) (name : String) (reaction : Reaction) (h : Hub) : Additions :=
  h.attached id (.consumer (h.addConsumer name reaction).1)

def chained (operation : Operation) : Nat → StageId → Hub → Additions
  | 0, _, _ => []
  | n + 1, id, h =>
    h.derived id ++ chained operation n (h.derive id operation).1 (h.derive id operation).2

theorem attach_gains (id : StageId) (sink : Sink) (h : Hub) :
    h.Gains (h.attached id sink) (h.attach id sink) := by
  refine ⟨fun source => ?_, rfl⟩
  cases source with
  | listeners category => by_cases hid : id < h.stages.size <;>
      simp [sinksOf, attach, attached, Additions.to, hid]
  | stage a =>
      simp only [sinksOf, attach, Array.getElem?_modify]
      by_cases ha : id = a
      · subst ha
        by_cases hid : id < h.stages.size
        · simp [attached, hid, Additions.to, Stage.append]
        · simp [attached, hid, Additions.to]
      · rw [if_neg ha]
        by_cases hid : id < h.stages.size <;> simp [attached, hid, Additions.to, ha]

theorem addStage_gains (operation : Operation) (policy : DeliveryPolicy) (h : Hub) :
    h.Gains [] (h.addStage operation policy).2 := by
  refine ⟨fun source => ?_, rfl⟩
  cases source with
  | listeners category => simp [sinksOf, addStage, Additions.to]
  | stage a =>
      simp only [sinksOf, addStage, Array.getElem?_push, Additions.to, List.filter_nil,
        List.map_nil, List.append_nil]
      by_cases ha : a = h.stages.size
      · simp [ha]
      · rw [if_neg ha]

theorem derive_gains (parent : StageId) (operation : Operation) (h : Hub) :
    h.Gains (h.derived parent) (h.derive parent operation).2 := by
  have hderived : ∀ policy, h.derived parent =
      [] ++ (h.addStage operation policy).2.attached parent (.stage h.stages.size) := by
    intro policy
    simp only [derived, attached, addStage, Array.size_push, Nat.lt_succ_iff, List.nil_append]
  rw [hderived]
  exact (addStage_gains operation _ h).trans (attach_gains parent (.stage h.stages.size) _)

theorem consume_gains (id : StageId) (name : String) (reaction : Reaction) (h : Hub) :
    h.Gains (h.consumed id name reaction) (h.consume id name reaction) := by
  have hnew : h.Gains [] (h.addConsumer name reaction).2 := .of_eq rfl rfl rfl
  exact hnew.trans (attach_gains id (.consumer (h.addConsumer name reaction).1) _)

theorem chain_gains (operation : Operation) :
    ∀ (n : Nat) (id : StageId) (h : Hub),
      h.Gains (chained operation n id h) (h.chain operation n id).2
  | 0, _, _ => .of_eq rfl rfl rfl
  | n + 1, id, h =>
    (derive_gains id operation h).trans (chain_gains operation n _ (h.derive id operation).2)

/-- A listener joins those of its category at the end; the other categories keep theirs. -/
theorem listenersFor_insert (category c : ListenerCategory) (listener : Sink) :
    ∀ buckets : List (ListenerCategory × List Sink),
      ListenerRegistry.listenersFor ⟨ListenerRegistry.insert category listener buckets⟩ c
        = ListenerRegistry.listenersFor ⟨buckets⟩ c ++ if category = c then [listener] else []
  | [] => by
      by_cases hc : category = c <;>
        simp [ListenerRegistry.listenersFor, ListenerRegistry.insert, hc]
  | (c', bucket) :: rest => by
      have ih := listenersFor_insert category c listener rest
      simp only [ListenerRegistry.listenersFor, ListenerRegistry.insert] at ih ⊢
      by_cases hsame : c' = category
      · subst hsame
        by_cases hc : c' = c <;> simp [hc]
      · rw [if_neg hsame]
        by_cases hc : c' = c
        · have hne : ¬ category = c := fun heq => hsame (hc.trans heq.symm)
          simp [hc, hne]
        · simpa [hc] using ih

theorem register_gains (category : ListenerCategory) (listener : Sink) (h : Hub) :
    h.Gains [(.listeners category, listener)] (h.register category listener) := by
  refine ⟨fun source => ?_, rfl⟩
  cases source with
  | stage id => simp [sinksOf, register, note, Additions.to]
  | listeners c =>
      refine (listenersFor_insert category c listener h.registry.buckets).trans ?_
      by_cases hc : category = c <;> simp [sinksOf, Additions.to, hc]

/-- The additions at the stage that an act gives; none if there is no such stage. -/
def wherever (h : Hub) (stage : StageRef) (next : StageId → Additions) : Additions :=
  match h.locate? stage with
  | .ok id => next id
  | .error _ => []

end Hub

open Hub

/-- What an act appends, other than by what it feeds or dispatches. -/
def Act.appends (c : Consumer) (h : Hub) : Act → Additions
  | .addConsumer stage name reaction => h.wherever stage fun id => h.consumed id name reaction
  | .addConsumerOnce stage name reaction =>
    if c.id ∈ h.spent then [] else h.wherever stage fun id => h.consumed id name reaction
  | .addBranch stage operation name reaction =>
    h.wherever stage fun id =>
      let (child, h') := h.derive id operation
      h.derived id ++ h'.consumed child name reaction
  | .addStage stage _ => h.wherever stage fun id => h.derived id
  | .attach stage child =>
    h.wherever stage fun id => h.wherever child fun c => h.attached id (.stage c)
  | .register category name reaction =>
    [(.listeners category, .consumer (h.addConsumer name reaction).1)]
  | _ => []

def Act.Emits : Act → Prop
  | .feed .. | .dispatch .. => True
  | _ => False

namespace Hub

theorem atStage_gains {h h' : Hub} {stage : StageRef} {next : StageId → Hub × Outcome}
    {more : StageId → Additions} (hsame : h.Gains [] h')
    (hlocate : h'.locate? stage = h.locate? stage)
    (hnext : ∀ id, h.Gains (more id) (next id).1) :
    h.Gains (h.wherever stage more) (h'.atStage stage next).1 := by
  rw [wherever, atStage, hlocate]
  cases h.locate? stage with
  | error f => exact hsame
  | ok id => exact hnext id

/-- An act that emits nothing appends what it is told to append. -/
theorem perform_gains (courier : Courier) (c : Consumer) (h : Hub) {a : Act} (ha : ¬ a.Emits) :
    h.Gains (a.appends c h) (h.perform courier c a).1 := by
  have hsame : h.Gains [] h := .of_eq rfl rfl rfl
  cases a with
  | breakOff f => exact hsame
  | feed stage e => exact absurd trivial ha
  | dispatch e => exact absurd trivial ha
  | addConsumer stage name reaction =>
      exact atStage_gains hsame rfl fun id => consume_gains id name reaction h
  | addConsumerOnce stage name reaction =>
      rw [Act.appends, perform]
      split
      · exact hsame
      · have hspent : h.Gains [] { h with spent := c.id :: h.spent } := .of_eq rfl rfl rfl
        exact atStage_gains hspent (by cases stage <;> rfl)
          fun id => hspent.trans (consume_gains id name reaction _)
  | addBranch stage operation name reaction =>
      exact atStage_gains hsame rfl fun id =>
        (derive_gains id operation h).trans (consume_gains _ name reaction _)
  | addStage stage operation =>
      exact atStage_gains hsame rfl fun id => derive_gains id operation h
  | attach stage child =>
      exact atStage_gains hsame rfl fun id =>
        atStage_gains hsame rfl fun c => attach_gains id (.stage c) h
  | register category name reaction =>
      have hnew : h.Gains [] (h.addConsumer name reaction).2 := .of_eq rfl rfl rfl
      exact hnew.trans (register_gains category (.consumer (h.addConsumer name reaction).1) _)

end Hub

/-- What a step appends, other than by what it feeds or dispatches. -/
def HubStep.appends (h : Hub) : HubStep → Additions
  | .derive parent _ _ => h.wherever parent fun p => h.derived p
  | .chain parent _ length operation => h.wherever parent fun p => chained operation length p h
  | .attach parent child =>
    h.wherever parent fun p => h.wherever child fun c => h.attached p (.stage c)
  | .consume parent consumer reaction =>
    h.wherever parent fun p => h.consumed p consumer reaction
  | .register category consumer reaction =>
    [(.listeners category, .consumer (h.addConsumer consumer reaction).1)]
  | .registerStage category child =>
    h.wherever child fun id => [(.listeners category, .stage id)]
  | _ => []

def HubStep.Emits : HubStep → Prop
  | .accept .. | .acceptAll .. | .dispatch .. => True
  | _ => False

namespace Hub

theorem withStage_gains {h : Hub} {stage : String} {next : StageId → Hub × HubAnswer}
    {more : StageId → Additions} (hnext : ∀ id, h.Gains (more id) (next id).1) :
    h.Gains (h.wherever stage more) (h.withStage stage next).1 := by
  rw [wherever, withStage, locate?]
  cases h.find? stage with
  | error f => exact .of_eq rfl rfl rfl
  | ok id => exact hnext id

/-- A step that emits nothing appends what it is told to append. -/
theorem step_gains (behaviour : Behaviour) (h : Hub) {s : HubStep} (hs : ¬ s.Emits) :
    h.Gains (s.appends h) (h.step behaviour s).1 := by
  have hsame : h.Gains [] h := .of_eq rfl rfl rfl
  -- A name that a stage is given afterwards is no sink.
  have hbind : ∀ {more : Additions} {h' : Hub} (name : String) (id : StageId),
      h.Gains more h' → h.Gains more (h'.bind name id) := fun name id hgains =>
    ⟨hgains.sinks, hgains.received⟩
  cases s with
  | accept stage e => exact absurd trivial hs
  | acceptAll stage es => exact absurd trivial hs
  | dispatch e => exact absurd trivial hs
  | start name policy => exact hbind name _ (addStage_gains .identity policy h)
  | standalone name operation => exact hbind name _ (addStage_gains operation .failFast h)
  | derive parent name operation =>
      exact withStage_gains fun p => hbind name _ (derive_gains p operation h)
  | chain parent name length operation =>
      exact withStage_gains fun p => hbind name _ (chain_gains operation length p h)
  | attach parent child =>
      exact withStage_gains fun p => withStage_gains fun c => attach_gains p (.stage c) h
  | consume stage consumer reaction =>
      exact withStage_gains fun id => consume_gains id consumer reaction h
  | register category consumer reaction =>
      have hnew : h.Gains [] (h.addConsumer consumer reaction).2 := .of_eq rfl rfl rfl
      exact hnew.trans
        (register_gains category (.consumer (h.addConsumer consumer reaction).1) _)
  | registerStage category stage =>
      exact withStage_gains fun id => register_gains category (.stage id) h
  | stage name =>
      change h.Gains [] _
      rw [step, withStage]
      split
      · exact hsame
      · split <;> exact hsame
  | listenersFor category => exact hsame
  | snapshot => exact hsame
  | registry => exact hsame

end Hub

/-! ## Entries -/

/-- One thing that happens in a run, as far as sinks are concerned. -/
inductive Moment
  | appended (more : Additions)
  | began (source : Source) (event : GatewayEvent)
  | visited (emission : Nat) (sink : Sink) (event : GatewayEvent)
  /-- The visit of an emission to a sink ended. -/
  | returned (emission : Nat) (outcome : Outcome)

/-- A moment with the hub as it was when the moment came. -/
structure Entry where
  moment : Moment
  hub : Hub

namespace Hub

/-- The entries that bringing an event to a sink leaves, from a moment of the given number on. -/
abbrev Scribe := Sink → GatewayEvent → Hub → Nat → List Entry

/-- The entries of one visit of an emission, around what happened inside. -/
def visit (n : Nat) (sink : Sink) (e : GatewayEvent) (h : Hub) (inside : List Entry)
    (r : Hub × Outcome) : List Entry :=
  ⟨.visited n sink e, h⟩ :: (inside ++ [⟨.returned n r.2, r.1⟩])

section

variable (courier : Courier) (scribe : Scribe)

def visitEntries (n : Nat) (policy : DeliveryPolicy) (e : GatewayEvent) :
    List Sink → Hub → Nat → List Entry
  | [], _, _ => []
  | sink :: rest, h, t =>
    let r := courier sink e h
    let first := visit n sink e h (scribe sink e h (t + 1)) r
    match r with
    | (h', .done) => first ++ visitEntries n policy e rest h' (t + first.length)
    | (_, .tooDeep) => first
    | (h', .fault f) =>
      match policy with
      | .failFast => first
      | .isolate =>
        first ++ visitEntries n policy e rest (h'.note (contained f)) (t + first.length)

/-- The entries of an emission. Its number is that of its first moment. -/
def emissionEntries (source : Source) (e : GatewayEvent) (h : Hub) (t : Nat) : List Entry :=
  ⟨.began source e, h⟩ ::
    visitEntries courier scribe t (h.policyOf source) e (h.sinksOf source) h (t + 1)

def passEntries (id : StageId) (e : GatewayEvent) (h : Hub) (t : Nat) : List Entry :=
  match h.stages[id]? with
  | none => []
  | some s =>
    match s.operation.apply e with
    | .ok (some out) => emissionEntries courier scribe (.stage id) out h t
    | _ => []

def performEntries (c : Consumer) (h : Hub) (t : Nat) : Act → List Entry
  | .feed stage e =>
    match h.locate? stage with
    | .ok id => passEntries courier scribe id e h t
    | .error _ => []
  | .dispatch e => emissionEntries courier scribe (.listeners e.category) e h t
  | a => [⟨.appended (a.appends c h), h⟩]

def performAllEntries (c : Consumer) : List Act → Hub → Nat → List Entry
  | [], _, _ => []
  | a :: rest, h, t =>
    let first := performEntries courier scribe c h t a
    match h.perform courier c a with
    | (h', .done) => first ++ performAllEntries c rest h' (t + first.length)
    | _ => first

end

def deliverEntries (behaviour : Behaviour) : Nat → Scribe
  | 0, _, _, _, _ => []
  | depth + 1, .stage id, e, h, t =>
    passEntries (deliver behaviour depth) (deliverEntries behaviour depth) id e h t
  | depth + 1, .consumer c, e, h, t =>
    let h := h.receive c.name e
    performAllEntries (deliver behaviour depth) (deliverEntries behaviour depth) c
      (behaviour c e h) h t

def acceptEntries (behaviour : Behaviour) (id : StageId) (e : GatewayEvent) (h : Hub) (t : Nat) :
    List Entry :=
  passEntries (deliver behaviour h.depthLimit) (deliverEntries behaviour h.depthLimit) id e h t

def acceptAllEntries (behaviour : Behaviour) (id : StageId) :
    List GatewayEvent → Hub → Nat → List Entry
  | [], _, _ => []
  | e :: rest, h, t =>
    let first := acceptEntries behaviour id e h t
    match h.accept behaviour id e with
    | (h', .done) => first ++ acceptAllEntries behaviour id rest h' (t + first.length)
    | _ => first

def dispatchEntries (behaviour : Behaviour) (e : GatewayEvent) (h : Hub) (t : Nat) : List Entry :=
  emissionEntries (deliver behaviour h.depthLimit) (deliverEntries behaviour h.depthLimit)
    (.listeners e.category) e h t

def stepEntries (behaviour : Behaviour) (h : Hub) (t : Nat) : HubStep → List Entry
  | .accept stage e =>
    match h.find? stage with
    | .ok id => acceptEntries behaviour id e h t
    | .error _ => []
  | .acceptAll stage es =>
    match h.find? stage with
    | .ok id => acceptAllEntries behaviour id es h t
    | .error _ => []
  | .dispatch e => dispatchEntries behaviour e h t
  | s => [⟨.appended (s.appends h), h⟩]

/-- What is left of a hub by steps one after the other. -/
def run (behaviour : Behaviour) : List HubStep → Hub → Hub
  | [], h => h
  | s :: rest, h => run behaviour rest (h.step behaviour s).1

def runEntries (behaviour : Behaviour) : List HubStep → Hub → Nat → List Entry
  | [], _, _ => []
  | s :: rest, h, t =>
    let first := h.stepEntries behaviour t s
    first ++ runEntries behaviour rest (h.step behaviour s).1 (t + first.length)

end Hub

end GatewayClient
