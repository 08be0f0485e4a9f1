import GatewayClient.Json.Decode
import GatewayClient.Text.Inspect

/-!
# Backoff

The wait before a retry doubles with each attempt up to a maximum, and a jitter factor between
zero and one adds headroom on top. The wait is whole milliseconds; the headroom is computed in
doubles.
-/

namespace GatewayClient

/-- How long retries wait. -/
structure Backoff where
  /-- The wait before the first retry. -/
  baseDelayMs : UInt64 := 1000
  /-- The greatest wait before headroom is added. -/
  maxDelayMs : UInt64 := 60000
  /-- The part of the wait that is added to it. -/
  jitterFactor : Binary64 := .zero
deriving DecidableEq, Repr

/-- Why a backoff describes no wait. -/
inductive BackoffError
  | zeroBase
  | zeroMax
  | maxBelowBase (max base : UInt64)
  | jitterOutOfRange (jitter : Binary64)
deriving DecidableEq, Repr

/-- A double as part of a message: never with an exponent, a whole number without a point. -/
def plainStyle : DecimalStyle := ⟨.up, none, false, false⟩

/-- A double in an inspection text: positional from `10 ^ -4` up to below `10 ^ 16`, a whole
number with `.0`. -/
def inspectStyle : DecimalStyle := ⟨.up, some (-4, 15), true, false⟩

def BackoffError.message : BackoffError → String
  | .zeroBase => "baseDelayMs must be positive"
  | .zeroMax => "maxDelayMs must be positive"
  | .maxBelowBase max base =>
    "maxDelayMs (" ++ toString max.toNat ++ ") must not be below baseDelayMs (" ++
      toString base.toNat ++ ")"
  | .jitterOutOfRange jitter =>
    "jitterFactor must be within 0.0..=1.0, got " ++ plainStyle.render jitter

namespace Backoff

/-- The first reason why a backoff describes no wait. -/
def validate (b : Backoff) : Except BackoffError Unit :=
  if b.baseDelayMs = 0 then .error .zeroBase
  else if b.maxDelayMs = 0 then .error .zeroMax
  else if b.maxDelayMs < b.baseDelayMs then
    .error (.maxBelowBase b.maxDelayMs b.baseDelayMs)
  else if !b.jitterFactor.isUnit then .error (.jitterOutOfRange b.jitterFactor)
  else .ok ()

/-- What a backoff that validates is. -/
theorem validate_eq_ok {b : Backoff} :
    b.validate = .ok () ↔
      b.baseDelayMs ≠ 0 ∧ b.maxDelayMs ≠ 0 ∧ b.baseDelayMs ≤ b.maxDelayMs ∧
        b.jitterFactor.isUnit = true := by
  unfold validate
  constructor
  · intro hvalid
    split at hvalid
    · cases hvalid
    · next hbase =>
      split at hvalid
      · cases hvalid
      · next hmax =>
        split at hvalid
        · cases hvalid
        · next hless =>
          split at hvalid
          · cases hvalid
          · next hunit =>
            refine ⟨hbase, hmax, UInt64.not_lt.mp hless, ?_⟩
            cases hjitter : b.jitterFactor.isUnit with
            | true => rfl
            | false => exact absurd (by rw [hjitter]; rfl) hunit
  · rintro ⟨hbase, hmax, hle, hunit⟩
    rw [if_neg hbase, if_neg hmax, if_neg (UInt64.not_lt.mpr hle), hunit]
    rfl

theorem validate_default : validate {} = .ok () := by
  have hunit : Binary64.zero.isUnit = true := by decide +kernel
  exact validate_eq_ok.mpr ⟨by decide, by decide, by decide, hunit⟩

/-- The greatest delay that can be told. -/
def delayLimit : Nat := UInt64.size - 1

/-- The wait before headroom: the base doubled once for each attempt after the first, at most 31
times, within the maximum and at least one millisecond. Attempt zero counts as the first. -/
def cappedDelay (base max : UInt64) (attempt : UInt32) : Nat :=
  let doublings := Nat.min (attempt.toNat - 1) 31
  let exponential := Nat.min (base.toNat * Nat.pow 2 doublings) delayLimit
  Nat.max (Nat.min exponential max.toNat) 1

/-- A wait with headroom, in doubles and rounded to whole milliseconds. No number of milliseconds
is a NaN times longer, so a NaN gives zero. -/
def withHeadroom (delay : Nat) (jitter : Binary64) : Nat :=
  match jitter.clampUnit with
  | none => 0
  | some j =>
    let stretched :=
      (Magnitude.nearest delay 1).bind fun d => (Magnitude.one.add j).bind fun f => d.mul f
    match stretched with
    | some s => Nat.min s.round delayLimit
    | none => delayLimit

/-- The wait in milliseconds before retry number `attempt`. -/
def delayFor (b : Backoff) (attempt : UInt32) : Nat :=
  withHeadroom (cappedDelay b.baseDelayMs b.maxDelayMs attempt) b.jitterFactor

/-- Equality of values, with the jitter factors compared as numbers. -/
def eqv (a b : Backoff) : Bool :=
  a.baseDelayMs == b.baseDelayMs && a.maxDelayMs == b.maxDelayMs &&
    a.jitterFactor.eqv b.jitterFactor

def inspect (b : Backoff) : String :=
  Text.inspectRecord "BackoffConfig"
    [("base_delay_ms", toString b.baseDelayMs.toNat),
     ("max_delay_ms", toString b.maxDelayMs.toNat),
     ("jitter_factor", inspectStyle.render b.jitterFactor)]

def toJson (b : Backoff) : Json :=
  .obj [("baseDelayMs", .ofInt b.baseDelayMs.toNat),
    ("jitterFactor", .ofDouble b.jitterFactor),
    ("maxDelayMs", .ofInt b.maxDelayMs.toNat)]

def fields : List (Json.Field Backoff) :=
  [Json.field "baseDelayMs" Json.decodeUInt64 fun a r => { r with baseDelayMs := a },
   Json.field "maxDelayMs" Json.decodeUInt64 fun a r => { r with maxDelayMs := a },
   Json.field "jitterFactor" Json.decodeDouble fun a r => { r with jitterFactor := a }]

def ofJson : Json → Json.Decoded Backoff :=
  Json.decodeDefaulted "BackoffConfig" fields {}

end Backoff

end GatewayClient
