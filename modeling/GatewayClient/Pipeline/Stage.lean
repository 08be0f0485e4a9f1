import GatewayClient.Event
import GatewayClient.Pipeline.Fault
import GatewayClient.Text.Inspect

/-!
# Pipeline stages

A stage applies its operation to an event and delivers what comes out to its sinks in the order in
which they were appended. A sink is another stage or a consumer. A consumer notes the event and
then reacts to it: the acts of its reaction can break off, append sinks to stages, feed events back
and use the registry. Stages are told apart by their number, so a stage can be the sink of several
others.
-/

namespace GatewayClient

/-- What happens to the remaining sinks when a delivery breaks off. -/
inductive DeliveryPolicy
  /-- The fault unwinds and the remaining sinks are skipped. -/
  | failFast
  /-- The fault is logged and the remaining sinks are served. -/
  | isolate
deriving DecidableEq, Repr

def DeliveryPolicy.inspect : DeliveryPolicy → String
  | .failFast => "FailFast"
  | .isolate => "Isolate"

/-- What a stage does to an event. Each function may break off. -/
inductive Operation
  | identity
  | filter (keeps : GatewayEvent → Except Fault Bool)
  | map (function : GatewayEvent → Except Fault GatewayEvent)
  | flatMap (function : GatewayEvent → Except Fault (Option GatewayEvent))

namespace Operation

/-- The name of the kind of operation. -/
def kind : Operation → String
  | identity => "Identity"
  | filter _ => "Filter"
  | map _ => "Map"
  | flatMap _ => "FlatMap"

/-- The event that goes on to the sinks, if one does. -/
def apply (e : GatewayEvent) : Operation → Except Fault (Option GatewayEvent)
  | identity => .ok (some e)
  | filter keeps => (keeps e).map fun kept => if kept then some e else none
  | map function => (function e).map some
  | flatMap function => function e

end Operation

/-- The number of a stage. -/
abbrev StageId := Nat

/-- How an act gives a stage: by a name, or by its number, as a stage that an act made may have no
name. -/
inductive StageRef
  | named (name : String)
  | numbered (id : StageId)

instance : Coe String StageRef := ⟨.named⟩

/-- One thing that a consumer does when it received an event. The consumers that an act makes have
reactions of their own. -/
inductive Act
  | breakOff (fault : Fault)
  /-- Appends a consumer to a stage. -/
  | addConsumer (stage : StageRef) (name : String) (reaction : GatewayEvent → List Act)
  /-- Appends a consumer to a stage the first time the acting consumer comes to such an act. That
  time is used up even if there is no such stage. -/
  | addConsumerOnce (stage : StageRef) (name : String) (reaction : GatewayEvent → List Act)
  /-- Appends a stage with a consumer to a stage. -/
  | addBranch (stage : StageRef) (operation : Operation) (name : String)
      (reaction : GatewayEvent → List Act)
  /-- Appends a new stage to a stage. -/
  | addStage (stage : StageRef) (operation : Operation)
  /-- Appends a stage that is there already to a stage. -/
  | attach (stage child : StageRef)
  /-- Feeds an event to a stage. -/
  | feed (stage : StageRef) (event : GatewayEvent)
  /-- Registers a consumer for a category. -/
  | register (category : ListenerCategory) (name : String) (reaction : GatewayEvent → List Act)
  /-- Brings an event to the listeners of its category. -/
  | dispatch (event : GatewayEvent)

/-- What a consumer does with an event: acts in order, up to the first that breaks off. -/
abbrev Reaction := GatewayEvent → List Act

/-- The reaction of a consumer that only notes the event. -/
def Reaction.none : Reaction := fun _ => []

/-- A receiver at the end of a pipeline. -/
structure Consumer where
  /-- Tells consumers of one name apart. -/
  id : Nat
  name : String
  reaction : Reaction

/-- A receiver of the events of a stage. -/
inductive Sink
  | stage (id : StageId)
  | consumer (c : Consumer)

/-- The name under which a sink is listed; a stage has none. -/
def Sink.name : Sink → String
  | .stage _ => "?"
  | .consumer c => c.name

/-- One stage of a pipeline. -/
structure Stage where
  operation : Operation
  policy : DeliveryPolicy
  sinks : List Sink := []

namespace Stage

/-- The stage with one more sink at the end. -/
def append (s : Stage) (sink : Sink) : Stage :=
  { s with sinks := s.sinks ++ [sink] }

def inspect (s : Stage) : String :=
  Text.inspectRecord "Pipeline"
    [("kind", s.operation.kind), ("sinks", toString s.sinks.length),
     ("policy", s.policy.inspect)]

end Stage

end GatewayClient
