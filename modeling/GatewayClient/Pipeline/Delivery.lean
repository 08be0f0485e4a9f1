import GatewayClient.Pipeline.Registry

/-!
# Delivery

A hub holds the stages, a registry and what consumers have received. Delivery is depth first: a
sink is served to the end before the next one. Each emission serves the sinks that the stage had
when the emission began; a sink appended meanwhile waits for the next emission.

What consumers do is a parameter of delivery, the behaviour; the acts of their reactions are one.

A consumer may feed an event back, so there is no bound on how deep deliveries nest. `deliver` takes
the depth to which they may; when it is used up the whole delivery ends with `tooDeep`. In a graph
without cycles whose consumers feed nothing back, the number of stages is depth enough.
-/

namespace GatewayClient

/-- An event that a consumer received, under the name of the consumer. -/
structure Receipt where
  consumer : String
  event : GatewayEvent

/-- How a delivery ended. -/
inductive Outcome
  | done
  | fault (f : Fault)
  | tooDeep
deriving DecidableEq, Repr

/-- The stages and listeners of a client, and what came of deliveries so far. -/
structure Hub where
  stages : Array Stage := #[]
  /-- The stages by name; the newest of a name comes first. -/
  names : List (String × StageId) := []
  registry : ListenerRegistry := {}
  /-- How many consumers there have been. -/
  consumers : Nat := 0
  /-- The consumers that have used up an act for one time only. -/
  spent : List Nat := []
  received : List Receipt := []
  journal : Journal := []

namespace Hub

/-! ## The graph -/

/-- The number of the stage of a name. -/
def find? (h : Hub) (name : String) : Except Fault StageId :=
  match h.names.find? (·.1 = name) with
  | some n => .ok n.2
  | none => .error (.text ("no stage " ++ name))

/-- The number of the stage that an act gives. -/
def locate? (h : Hub) : StageRef → Except Fault StageId
  | .named name => h.find? name
  | .numbered id =>
    if id < h.stages.size then .ok id else .error (.text ("no stage " ++ toString id))

/-- Adds a stage without sinks; returns its number. -/
def addStage (operation : Operation) (policy : DeliveryPolicy) (h : Hub) : StageId × Hub :=
  (h.stages.size, { h with stages := h.stages.push { operation, policy } })

def bind (name : String) (id : StageId) (h : Hub) : Hub :=
  { h with names := (name, id) :: h.names }

/-- Appends a sink to a stage. -/
def attach (id : StageId) (sink : Sink) (h : Hub) : Hub :=
  { h with stages := h.stages.modify id (·.append sink) }

/-- Adds a stage as the last sink of another one, with the policy of that one. -/
def derive (parent : StageId) (operation : Operation) (h : Hub) : StageId × Hub :=
  let policy := (h.stages[parent]?.map (·.policy)).getD .failFast
  let (id, h) := h.addStage operation policy
  (id, h.attach parent (.stage id))

def addConsumer (name : String) (reaction : Reaction) (h : Hub) : Consumer × Hub :=
  (⟨h.consumers, name, reaction⟩, { h with consumers := h.consumers + 1 })

/-- Appends a new consumer to a stage. -/
def consume (id : StageId) (name : String) (reaction : Reaction) (h : Hub) : Hub :=
  let (c, h) := h.addConsumer name reaction
  h.attach id (.consumer c)

/-! ## Records -/

def note (record : LogRecord) (h : Hub) : Hub :=
  { h with journal := h.journal ++ [record] }

/-- Notes that a consumer received an event. -/
def receive (name : String) (e : GatewayEvent) (h : Hub) : Hub :=
  { h with received := h.received ++ [⟨name, e⟩] }

/-- An event comes to a sink: a consumer notes it, a stage does not. -/
def arrive (sink : Sink) (e : GatewayEvent) (h : Hub) : Hub :=
  match sink with
  | .stage _ => h
  | .consumer c => h.receive c.name e

def register (category : ListenerCategory) (listener : Sink) (h : Hub) : Hub :=
  let (registry, record) := h.registry.register category listener
  { h with registry }.note record

/-- The record of a contained fault. -/
def contained (f : Fault) : LogRecord :=
  { level := .error, message := "pipeline sink panicked, continuing with remaining sinks",
    fields := [("reason", f.reason)] }

theorem contained_eq (f : Fault) : contained f =
    { level := .error, message := "pipeline sink panicked, continuing with remaining sinks",
      fields := [("reason", f.reason)] } := rfl

/-! ## Delivering -/

/-- A way to bring an event to a sink. -/
abbrev Courier := Sink → GatewayEvent → Hub → Hub × Outcome

/-- Serves sinks one after the other. Under the policy `isolate` a fault is logged and the rest
served. -/
def emit (courier : Courier) (policy : DeliveryPolicy) (e : GatewayEvent) :
    List Sink → Hub → Hub × Outcome
  | [], h => (h, .done)
  | sink :: rest, h =>
    match courier sink e h with
    | (h, .done) => emit courier policy e rest h
    | (h, .tooDeep) => (h, .tooDeep)
    | (h, .fault f) =>
      match policy with
      | .failFast => (h, .fault f)
      | .isolate => emit courier policy e rest (h.note (contained f))

/-- Applies the operation of a stage and serves the sinks it has at that moment. -/
def pass (courier : Courier) (id : StageId) (e : GatewayEvent) (h : Hub) : Hub × Outcome :=
  match h.stages[id]? with
  | none => (h, .done)
  | some stage =>
    match stage.operation.apply e with
    | .error f => (h, .fault f)
    | .ok none => (h, .done)
    | .ok (some out) => emit courier stage.policy out stage.sinks h

/-- Serves the listeners that the category of an event has at that moment. -/
def announce (courier : Courier) (e : GatewayEvent) (h : Hub) : Hub × Outcome :=
  emit courier .failFast e (h.registry.listenersFor e.category) h

/-- Ends an act that cannot break off. -/
def acted (h : Hub) : Hub × Outcome := (h, .done)

/-- Goes on with the stage that an act gives, or ends with the fault that there is none. -/
def atStage (h : Hub) (stage : StageRef) (next : StageId → Hub × Outcome) : Hub × Outcome :=
  match h.locate? stage with
  | .error f => (h, .fault f)
  | .ok id => next id

/-- One act of a consumer. -/
def perform (courier : Courier) (c : Consumer) (h : Hub) : Act → Hub × Outcome
  | .breakOff f => (h, .fault f)
  | .addConsumer stage name reaction =>
    h.atStage stage fun id => (h.consume id name reaction).acted
  | .addConsumerOnce stage name reaction =>
    if c.id ∈ h.spent then h.acted
    else
      let h := { h with spent := c.id :: h.spent }
      h.atStage stage fun id => (h.consume id name reaction).acted
  | .addBranch stage operation name reaction =>
    h.atStage stage fun id =>
      let (child, h) := h.derive id operation
      (h.consume child name reaction).acted
  | .addStage stage operation => h.atStage stage fun id => (h.derive id operation).2.acted
  | .attach stage child =>
    h.atStage stage fun id => h.atStage child fun c => (h.attach id (.stage c)).acted
  | .feed stage e => h.atStage stage fun id => h.pass courier id e
  | .register category name reaction =>
    let (listener, h) := h.addConsumer name reaction
    (h.register category (.consumer listener)).acted
  | .dispatch e => h.announce courier e

/-- The acts of a consumer one after the other, up to the first that breaks off. -/
def performAll (courier : Courier) (c : Consumer) : List Act → Hub → Hub × Outcome
  | [], h => h.acted
  | a :: rest, h =>
    match h.perform courier c a with
    | (h, .done) => performAll courier c rest h
    | broken => broken

end Hub

/-- What consumers do: the acts with which a consumer answers an event, fixed in the hub of the
moment in which it received it. A behaviour can depend on all that happened before. -/
abbrev Behaviour := Consumer → GatewayEvent → Hub → List Act

/-- Consumers follow their reactions. -/
def Consumer.acts : Behaviour := fun c e _ => c.reaction e

namespace Hub

/-- Brings an event to a sink, nesting at most `depth` deep. -/
def deliver (behaviour : Behaviour) : Nat → Courier
  | 0, sink, e, h => (h.arrive sink e, .tooDeep)
  | depth + 1, .stage id, e, h => h.pass (deliver behaviour depth) id e
  | depth + 1, .consumer c, e, h =>
    let h := h.receive c.name e
    performAll (deliver behaviour depth) c (behaviour c e h) h

/-! ## Entry points -/

/-- The depth that is left for what consumers feed back. -/
def room : Nat := 10000

/-- The depth to which deliveries nest: every stage on the way once, and room for what consumers
feed back. -/
def depthLimit (h : Hub) : Nat := h.stages.size + room

/-- Feeds an event to a stage. -/
def accept (behaviour : Behaviour) (id : StageId) (e : GatewayEvent) (h : Hub) : Hub × Outcome :=
  h.pass (deliver behaviour h.depthLimit) id e

/-- Brings an event to the listeners of its category. -/
def dispatch (behaviour : Behaviour) (e : GatewayEvent) (h : Hub) : Hub × Outcome :=
  h.announce (deliver behaviour h.depthLimit) e

/-- Brings an event to listeners in order, up to the first that breaks off. -/
def serve (behaviour : Behaviour) (listeners : List Sink) (e : GatewayEvent) (h : Hub) :
    Hub × Outcome :=
  emit (deliver behaviour h.depthLimit) .failFast e listeners h

end Hub

end GatewayClient
