import GatewayClient.Backoff
import GatewayClient.Client.Basic
import GatewayClient.Client.Probe
import GatewayClient.Log.Record
import GatewayClient.RetryCounter

/-!
# Lookups of the recommended shard count

A lookup probes until an attempt succeeds or its token is cancelled. After a failed attempt it
waits for the backoff; the token ends the wait, while a probe that is under way is finished first.
A lookup of a client then writes what it found to the client.
-/

namespace GatewayClient

structure LookupReport where
  recommendation : Recommendation
  /-- The failed attempts before. -/
  retries : UInt32
deriving DecidableEq, Repr

/-- A lookup: what it was started with, and the failures it has counted. -/
structure Lookup where
  request : ProbeRequest
  backoff : Backoff
  /-- The name of the token that cancels the lookup. -/
  token : Option String
  retry : RetryCounter := {}
deriving DecidableEq, Repr

inductive LookupPhase
  | probing (phase : ProbePhase)
  | backingOff (attempt : UInt32)

inductive LookupNext
  | wait (phase : LookupPhase) (ms : Nat)
  | returned (result : Except ClientError LookupReport)
  | faulted (f : Fault)

/-- One run of a lookup between two waits. -/
structure LookupStep where
  lookup : Lookup
  deeds : List ProbeDeed := []
  notes : Journal := []
  next : LookupNext

namespace Lookup

/-! ## What a lookup says -/

def succeeded (report : LookupReport) : LogRecord :=
  { level := .debug, message := "recommended shard lookup succeeded",
    fields :=
      [("shard_count", toString report.recommendation.shardCount.toNat),
       ("endpoint", report.recommendation.endpoint),
       ("retries", toString report.retries.toNat)] }

theorem succeeded_eq (r : Recommendation) (retries : UInt32) : succeeded ⟨r, retries⟩ =
    { level := .debug, message := "recommended shard lookup succeeded",
      fields :=
        [("shard_count", toString r.shardCount.toNat), ("endpoint", r.endpoint),
         ("retries", toString retries.toNat)] } := rfl

def failed (e : ClientError) (attempt : UInt32) : LogRecord :=
  { level := .warn, message := "recommended shard lookup failed",
    fields :=
      [("error", e.message), ("category", e.category), ("attempt", toString attempt.toNat)] }

theorem failed_eq (e : ClientError) (attempt : UInt32) : failed e attempt =
    { level := .warn, message := "recommended shard lookup failed",
      fields :=
        [("error", e.message), ("category", e.category),
         ("attempt", toString attempt.toNat)] } := rfl

def retrying (attempt : UInt32) (delayMs : Nat) : LogRecord :=
  { level := .info, message := "retrying recommended shard lookup",
    fields := [("attempt", toString attempt.toNat), ("delay_ms", toString delayMs)] }

theorem retrying_eq (attempt : UInt32) (delayMs : Nat) : retrying attempt delayMs =
    { level := .info, message := "retrying recommended shard lookup",
      fields := [("attempt", toString attempt.toNat), ("delay_ms", toString delayMs)] } := rfl

def interrupted (attempt : UInt32) : LogRecord :=
  { level := .debug, message := "recommended shard lookup cancelled",
    fields := [("attempt", toString attempt.toNat)] }

/-! ## Steps -/

/-- Goes on with the answer of a probe: returns a recommendation, or counts the failure and
waits. -/
def settle (l : Lookup) : ProbeAnswer → LookupStep
  | .ok recommendation =>
    let (retries, retry) := l.retry.reset
    let report : LookupReport := ⟨recommendation, retries⟩
    { lookup := { l with retry }, notes := [succeeded report], next := .returned (.ok report) }
  | .error e =>
    let (attempt, retry) := l.retry.recordFailure
    let delay := l.backoff.delayFor attempt
    { lookup := { l with retry }, notes := [failed e attempt, retrying attempt delay],
      next := .wait (.backingOff attempt) delay }

/-- Goes on after a run of its probe. -/
def follow (l : Lookup) (s : ProbeStep) : LookupStep :=
  let step : LookupStep :=
    match s.next with
    | .wait phase ms => { lookup := l, next := .wait (.probing phase) ms }
    | .faulted f => { lookup := l, next := .faulted f }
    | .settled answer => l.settle answer
  { step with deeds := s.deeds }

/-- Starts an attempt whose probe takes a course. -/
def attempt (l : Lookup) (course : ProbeCourse) : LookupStep :=
  l.follow (Probe.start course)

/-- Goes on after a wait of its probe. -/
def resume (l : Lookup) (phase : ProbePhase) : LookupStep :=
  l.follow (Probe.resume phase)

/-- Ends because the token is cancelled. -/
def cancel (l : Lookup) (notes : Journal) : LookupStep :=
  { lookup := l, notes, next := .returned (.error .cancelled) }

end Lookup

/-- A backoff that would begin with the token cancelled already ends at once. -/
def LookupStep.heed (s : LookupStep) (cancelled : Bool) : LookupStep :=
  match s.next, cancelled with
  | .wait (.backingOff attempt) _, true =>
    { s with
      notes := s.notes ++ [Lookup.interrupted attempt]
      next := .returned (.error .cancelled) }
  | _, _ => s

namespace Client

/-- The lookup of a client, with the configuration of this moment. -/
def lookup (c : Client) (token : Option String) : Except ClientError Lookup :=
  match c.credential with
  | none =>
    .error (.configuration "cannot request the recommended total shards without a token")
  | some credential =>
    .ok
      { request := ⟨credential, c.proxy, c.trustAllCertificates⟩
        backoff := c.backoff
        token }

/-- The record of a recommendation that was applied. -/
def applied (report : LookupReport) : LogRecord :=
  { level := .info, message := "applied recommended total shards",
    fields :=
      [("total_shards", toString report.recommendation.shardCount.toNat),
       ("retries", toString report.retries.toNat)] }

end Client

end GatewayClient
