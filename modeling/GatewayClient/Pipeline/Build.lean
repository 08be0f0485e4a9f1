import GatewayClient.Pipeline.Delivery

/-!
# Building and using pipelines by name

Each step names the stages it is about. A step about a name without a stage breaks off and changes
nothing; what a delivery did before it broke off stays.
-/

namespace GatewayClient

/-- One step of building or using pipelines and the registry. -/
inductive HubStep
  /-- Starts a pipeline with a stage that forwards everything. -/
  | start (name : String) (policy : DeliveryPolicy)
  /-- Makes a stage that is linked later. -/
  | standalone (name : String) (operation : Operation)
  /-- Makes a stage behind another one. -/
  | derive (parent name : String) (operation : Operation)
  /-- Makes a row of equal stages behind a stage and names the last. -/
  | chain (parent name : String) (length : Nat) (operation : Operation)
  | attach (parent child : String)
  | consume (stage consumer : String) (reaction : Reaction)
  | accept (stage : String) (e : GatewayEvent)
  | acceptAll (stage : String) (events : List GatewayEvent)
  | stage (name : String)
  | register (category : ListenerCategory) (consumer : String) (reaction : Reaction)
  | registerStage (category : ListenerCategory) (stage : String)
  | listenersFor (category : ListenerCategory)
  | snapshot
  | dispatch (e : GatewayEvent)
  | registry

inductive HubAnswer
  | outcome (o : Outcome)
  | stage (s : Stage)
  | listeners (sinks : List Sink)
  | snapshot (entries : List (ListenerCategory × Sink))
  | registry (r : ListenerRegistry)

namespace Hub

/-- Feeds events to a stage one after the other, up to the first delivery that is not done. -/
def acceptAll (behaviour : Behaviour) (id : StageId) : List GatewayEvent → Hub → Hub × Outcome
  | [], h => (h, .done)
  | e :: rest, h =>
    match h.accept behaviour id e with
    | (h, .done) => acceptAll behaviour id rest h
    | broken => broken

/-- Makes a row of equal stages behind a stage; returns the last. -/
def chain (operation : Operation) : Nat → StageId → Hub → StageId × Hub
  | 0, id, h => (id, h)
  | n + 1, id, h =>
    let (next, h) := h.derive id operation
    chain operation n next h

/-- The answer of a step that ended. -/
def answered (r : Hub × Outcome) : Hub × HubAnswer := (r.1, .outcome r.2)

/-- The answer of a step that cannot break off. -/
def silent (h : Hub) : Hub × HubAnswer := (h, .outcome .done)

/-- Goes on with a named stage, or breaks off. -/
def withStage (h : Hub) (name : String) (next : StageId → Hub × HubAnswer) : Hub × HubAnswer :=
  match h.find? name with
  | .error f => (h, .outcome (.fault f))
  | .ok id => next id

def step (behaviour : Behaviour) (h : Hub) : HubStep → Hub × HubAnswer
  | .start name policy =>
    let (id, h) := h.addStage .identity policy
    (h.bind name id).silent
  | .standalone name operation =>
    let (id, h) := h.addStage operation .failFast
    (h.bind name id).silent
  | .derive parent name operation =>
    h.withStage parent fun p =>
      let (id, h) := h.derive p operation
      (h.bind name id).silent
  | .chain parent name length operation =>
    h.withStage parent fun p =>
      let (id, h) := h.chain operation length p
      (h.bind name id).silent
  | .attach parent child =>
    h.withStage parent fun p => h.withStage child fun c => (h.attach p (.stage c)).silent
  | .consume stage consumer reaction =>
    h.withStage stage fun id => (h.consume id consumer reaction).silent
  | .accept stage e => h.withStage stage fun id => answered (h.accept behaviour id e)
  | .acceptAll stage events =>
    h.withStage stage fun id => answered (h.acceptAll behaviour id events)
  | .stage name =>
    h.withStage name fun id =>
      match h.stages[id]? with
      | some s => (h, .stage s)
      | none => h.silent
  | .register category consumer reaction =>
    let (c, h) := h.addConsumer consumer reaction
    (h.register category (.consumer c)).silent
  | .registerStage category stage =>
    h.withStage stage fun id => (h.register category (.stage id)).silent
  | .listenersFor category => (h, .listeners (h.registry.listenersFor category))
  | .snapshot => (h, .snapshot h.registry.snapshot)
  | .dispatch e => answered (h.dispatch behaviour e)
  | .registry => (h, .registry h.registry)

end Hub

end GatewayClient
