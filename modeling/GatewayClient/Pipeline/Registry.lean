import GatewayClient.Log.Record
import GatewayClient.Pipeline.Stage

/-!
# Listener registries

A registry keeps a bucket of listeners for each category, in the order of registration. Its
snapshot is the listeners of all buckets, stably sorted by category, so the order of the buckets
does not count.
-/

namespace GatewayClient

/-- The listeners by category. -/
structure ListenerRegistry where
  buckets : List (ListenerCategory × List Sink) := []

namespace ListenerRegistry

/-- Appends a listener to the bucket of a category. -/
def insert (category : ListenerCategory) (listener : Sink) :
    List (ListenerCategory × List Sink) → List (ListenerCategory × List Sink)
  | [] => [(category, [listener])]
  | (c, bucket) :: rest =>
    if c = category then (c, bucket ++ [listener]) :: rest
    else (c, bucket) :: insert category listener rest

/-- The listeners of a category, in the order of registration. -/
def listenersFor (r : ListenerRegistry) (category : ListenerCategory) : List Sink :=
  match r.buckets.find? (·.1 = category) with
  | some b => b.2
  | none => []

/-- The record of a registration. -/
def registered (category : ListenerCategory) (count : Nat) : LogRecord :=
  { level := .debug, message := "registered listener",
    fields := [("category", category.display), ("count", toString count)] }

/-- Registers a listener for a category. The record tells how many the category has now. -/
def register (r : ListenerRegistry) (category : ListenerCategory) (listener : Sink) :
    ListenerRegistry × LogRecord :=
  let next : ListenerRegistry := ⟨insert category listener r.buckets⟩
  (next, registered category (next.listenersFor category).length)

/-- All listeners with their categories, by category and then in the order of registration. -/
def snapshot (r : ListenerRegistry) : List (ListenerCategory × Sink) :=
  (r.buckets.flatMap fun b => b.2.map fun l => (b.1, l)).mergeSort
    fun a b => a.1.rank ≤ b.1.rank

/-- How many listeners are registered. -/
def count (r : ListenerRegistry) : Nat :=
  (r.buckets.flatMap fun b => b.2).length

def isEmpty (r : ListenerRegistry) : Bool := r.count == 0

def inspect (r : ListenerRegistry) : String :=
  Text.inspectRecord "ListenerRegistry" [("listener_count", toString r.count)]

end ListenerRegistry

end GatewayClient
