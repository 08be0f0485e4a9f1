import GatewayClient.Json.Basic
import GatewayClient.Text.Inspect

/-!
# Shard assignments

A connection serves one shard of several. Shards are numbered from zero and shown from one, so the
number shown never leaves 32 bits.
-/

namespace GatewayClient

inductive ShardError
  | totalBelowOne
  | currentOutOfRange (current total : UInt32)
  | duplicate (shard : UInt32)
  | outOfRange (shard total : UInt32)
deriving DecidableEq, Repr

def ShardError.message : ShardError → String
  | .totalBelowOne => "totalShards cannot be less than 1"
  | .currentOutOfRange current total =>
    "currentShard (" ++ toString current.toNat ++ ") must be less than totalShards (" ++
      toString total.toNat ++ ")"
  | .duplicate shard =>
    "shard " ++ toString shard.toNat ++ " cannot be started multiple times"
  | .outOfRange shard total =>
    "shard " ++ toString shard.toNat ++ " must be less than totalShards (" ++
      toString total.toNat ++ ")"

/-- One shard of a total. -/
structure ShardAssignment where
  index : UInt32
  total : UInt32
  index_lt_total : index < total := by decide
deriving DecidableEq, Repr

namespace ShardAssignment

/-- The only shard of one. -/
def unsharded : ShardAssignment where
  index := 0
  total := 1

/-- The assignment of an index among a total. -/
def ofPair (index total : UInt32) : Except ShardError ShardAssignment :=
  if total < 1 then .error .totalBelowOne
  else if h : index < total then .ok ⟨index, total, h⟩
  else .error (.currentOutOfRange index total)

/-- The number shown to people, counted from one. -/
def ordinal (a : ShardAssignment) : Nat := a.index.toNat + 1

def display (a : ShardAssignment) : String :=
  toString a.ordinal ++ "/" ++ toString a.total.toNat

def inspect (a : ShardAssignment) : String :=
  Text.inspectRecord "ShardAssignment"
    [("index", toString a.index.toNat), ("total", toString a.total.toNat)]

def toJson (a : ShardAssignment) : Json :=
  .obj [("index", .ofInt a.index.toNat), ("total", .ofInt a.total.toNat)]

/-- The ordinal is at most the total, so it fits in 32 bits. -/
theorem ordinal_le_total (a : ShardAssignment) : a.ordinal ≤ a.total.toNat :=
  UInt32.lt_iff_toNat_lt.mp a.index_lt_total

/-! ## Changing the numbers of a client -/

def withTotal (a : ShardAssignment) (total : UInt32) : Except ShardError ShardAssignment :=
  ofPair a.index total

def withIndex (a : ShardAssignment) (index : UInt32) : Except ShardError ShardAssignment :=
  ofPair index a.total

end ShardAssignment

end GatewayClient
