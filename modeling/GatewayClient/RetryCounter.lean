/-!
# Retry counters

Counts the failures since the last success, in 32 bits.
-/

namespace GatewayClient

/-- The failures since the last reset. -/
structure RetryCounter where
  attempt : UInt32 := 0
deriving DecidableEq, Repr

namespace RetryCounter

/-- Counts a failure; returns the number of the attempt that failed. The counter starts again
after its greatest value, which is told for the attempt after it as well. -/
def recordFailure (r : RetryCounter) : UInt32 × RetryCounter :=
  (if r.attempt = 0xFFFFFFFF then 0xFFFFFFFF else r.attempt + 1, ⟨r.attempt + 1⟩)

/-- Counts some failures, one after the other. -/
def recordFailures (count : Nat) (r : RetryCounter) : RetryCounter :=
  ⟨r.attempt + UInt32.ofNat count⟩

/-- Starts again; returns the failures so far. -/
def reset (r : RetryCounter) : UInt32 × RetryCounter :=
  (r.attempt, ⟨0⟩)

end RetryCounter

end GatewayClient
