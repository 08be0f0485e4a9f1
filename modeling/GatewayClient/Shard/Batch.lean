import GatewayClient.Shard.Assignment

/-!
# Batches of shards

A batch names shards to start together. It is refused as a whole: for the first index that it
repeats, and otherwise for the first index that is no shard of the total.
-/

namespace GatewayClient.Batch

/-- The first index that an earlier one equals. `seen` holds the indices before. -/
def firstRepeated? (seen : List UInt32) : List UInt32 → Option UInt32
  | [] => none
  | s :: rest => if s ∈ seen then some s else firstRepeated? (s :: seen) rest

/-- The assignments of indices among a total, or the first index that is none of them. -/
def assign (total : UInt32) : List UInt32 → Except ShardError (List ShardAssignment)
  | [] => .ok []
  | s :: rest =>
    match ShardAssignment.ofPair s total with
    | .error _ => .error (.outOfRange s total)
    | .ok a => (assign total rest).map (a :: ·)

def validate (total : UInt32) (shards : List UInt32) : Except ShardError (List ShardAssignment) :=
  match firstRepeated? [] shards with
  | some s => .error (.duplicate s)
  | none => assign total shards

end GatewayClient.Batch
