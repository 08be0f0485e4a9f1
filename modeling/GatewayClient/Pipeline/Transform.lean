import GatewayClient.Pipeline.Stage

/-!
# Transforms and conditions

Operations and reactions as data: a transform makes a payload from an event or makes none, and a
condition holds of an event or does not. Both can break off. Arithmetic is on whole numbers of 64
bits with a sign.
-/

namespace GatewayClient

/-- How a payload is made from an event. -/
inductive Transform
  | add (n : Int)
  | mul (n : Int)
  | half
  | textField (key : String)
  | intField (key : String)
  | get (key : String)
  | wrap (key : String)
  | const (value : Json)
  | shard
  | category
  | length
  | seq (steps : List Transform)
  | breakOff (fault : Fault)

/-- What can hold of an event. -/
inductive Condition
  | always
  | never
  | even
  | greater (n : Int)
  | equals (value : Json)
  | has (key : String)
  | isNull
  | category (c : ListenerCategory)
  | shard (n : Int)
  | not (c : Condition)
  | both (a b : Condition)
  | breakOffOn (value : Json) (fault : Fault)
  | breakOff (fault : Fault)

/-- The whole number that arithmetic gave, if it fits in 64 bits. -/
def fitInt64 (i : Int) : Except Fault (Option Json) :=
  if Json.inInt64 i then .ok (some (.ofInt i)) else .error (.text "overflow")

/-- The whole number that a payload is. -/
def wholePayload (e : GatewayEvent) : Except Fault Int :=
  match e.payload.asInt64? with
  | some i => .ok i
  | none => .error (.text "not an integer")

namespace Transform

/-- The length of a text in characters, or the number of members of a container. -/
def lengthOf : Json → Option Json
  | .str s => some (.ofInt s.length)
  | .arr items => some (.ofInt items.length)
  | .obj entries => some (.ofInt entries.length)
  | _ => none

mutual

/-- The payload made from an event. -/
def apply (e : GatewayEvent) : Transform → Except Fault (Option Json)
  | add n => do fitInt64 ((← wholePayload e) + n)
  | mul n => do fitInt64 ((← wholePayload e) * n)
  | half =>
    .ok (e.payload.asInt64?.bind fun i => if i % 2 = 0 then some (.ofInt (i / 2)) else none)
  | textField key => .ok ((e.textField? key).map .str)
  | intField key => .ok ((e.intField? key).map .ofInt)
  | get key => .ok (e.payload.get? key)
  | wrap key => .ok (some (.obj [(key, e.payload)]))
  | const value => .ok (some value)
  | shard => .ok (some (.ofInt e.shard.toNat))
  | category => .ok (some (.str e.category.display))
  | length => .ok (lengthOf e.payload)
  | seq steps => applyAll e steps
  | breakOff f => .error f

/-- Each step sees the payload of the one before it; the first that makes none ends it. -/
def applyAll (e : GatewayEvent) : List Transform → Except Fault (Option Json)
  | [] => .ok (some e.payload)
  | t :: rest => do
    match ← apply e t with
    | none => .ok none
    | some payload => applyAll { e with payload } rest

end

/-- As an operation on events; no payload becomes `null`. -/
def event (t : Transform) (e : GatewayEvent) : Except Fault GatewayEvent :=
  (t.apply e).map fun payload => { e with payload := payload.getD .null }

/-- As an operation on events; no payload drops the event. -/
def event? (t : Transform) (e : GatewayEvent) : Except Fault (Option GatewayEvent) :=
  (t.apply e).map fun payload => payload.map fun payload => { e with payload }

end Transform

namespace Condition

/-- Whether the condition holds of an event. -/
def holds (e : GatewayEvent) : Condition → Except Fault Bool
  | always => .ok true
  | never => .ok false
  | even => .ok ((e.payload.asInt64?.map fun i => i % 2 == 0).getD false)
  | greater n => .ok ((e.payload.asInt64?.map fun i => decide (n < i)).getD false)
  | equals value => .ok (e.payload.eqv value)
  | has key => .ok (e.payload.get? key).isSome
  | isNull => .ok e.payload.isNull
  | category c => .ok (e.category = c)
  | shard n => .ok ((e.shard.toNat : Int) = n)
  | not c => (holds e c).map (! ·)
  | both a b => do if ← holds e a then holds e b else .ok false
  | breakOffOn value f => if e.payload.eqv value then .error f else .ok true
  | breakOff f => .error f

/-- As a predicate on events. -/
def test (c : Condition) (e : GatewayEvent) : Except Fault Bool := c.holds e

end Condition

/-! ## Operations made of them -/

namespace Operation

/-- Keeps the events of which a condition holds. -/
def keeping (c : Condition) : Operation := .filter c.test

/-- Keeps the events of which a condition does not hold. -/
def dropping (c : Condition) : Operation := .filter fun e => (c.holds e).map (! ·)

/-- Keeps the events that have an attribute. -/
def having (t : Transform) : Operation := .filter fun e => (t.apply e).map (·.isSome)

/-- Keeps the events of whose attribute a condition holds. -/
def keepingBy (t : Transform) (c : Condition) : Operation :=
  .filter fun e => do c.holds (← t.event e)

/-- Keeps the events of whose attribute a condition does not hold. -/
def droppingBy (t : Transform) (c : Condition) : Operation :=
  .filter fun e => do return !(← c.holds (← t.event e))

end Operation

/-! ## Reactions made of them -/

namespace Reaction

/-- The same act for each event. -/
def always (a : Act) : Reaction := fun _ => [a]

/-- An act for the events of which a condition holds; a condition that breaks off breaks the
reaction off. -/
def onlyIf (c : Condition) (act : GatewayEvent → Act) : Reaction := fun e =>
  match c.holds e with
  | .ok true => [act e]
  | .ok false => []
  | .error f => [.breakOff f]

/-- Reactions one after the other. -/
def inOrder (reactions : List Reaction) : Reaction := fun e => reactions.flatMap fun r => r e

/-- Breaks off for the events of a payload. -/
def breakOffOn (payload : Json) (f : Fault) : Reaction :=
  onlyIf (.equals payload) fun _ => .breakOff f

/-- Feeds a transformed event to a stage, for the events of which a condition holds. A transform
that breaks off does so before the stage is looked for. -/
def feed (stage : String) (t : Transform) (c : Condition) : Reaction :=
  onlyIf c fun e =>
    match t.event e with
    | .ok fed => .feed stage fed
    | .error f => .breakOff f

/-- Dispatches the payload under a category, for the events of which a condition holds. -/
def dispatch (category : ListenerCategory) (c : Condition) : Reaction :=
  onlyIf c fun e => .dispatch { e with category }

end Reaction

end GatewayClient
