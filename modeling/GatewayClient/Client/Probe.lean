import GatewayClient.ClientError
import GatewayClient.Credential
import GatewayClient.Pipeline.Fault
import GatewayClient.Proxy
import GatewayClient.Text.Inspect

/-!
# Probes

A probe opens a session with the control plane, asks for the recommended shard count and closes
the session, whatever the answer. A fault of the query counts as a failed query; a fault of
opening or closing unwinds. The course of a probe says how the control plane treats it; each part
of it may take time, during which the probe is in a phase.
-/

namespace GatewayClient

structure ProbeRequest where
  credential : Credential
  proxy : ProxyConfig
  trustAllCertificates : Bool
deriving DecidableEq, Repr

def ProbeRequest.inspect (r : ProbeRequest) : String :=
  Text.inspectRecord "ProbeRequest"
    [("credential", r.credential.inspect), ("proxy", r.proxy.inspect),
     ("trust_all_certificates", Text.inspectBool r.trustAllCertificates)]

structure Recommendation where
  endpoint : String
  shardCount : UInt32
deriving DecidableEq, Repr

inductive Response (α : Type)
  | answer (a : α)
  | refusal (error : ClientError)
  | fault (f : Fault)
deriving DecidableEq, Repr

/-- How the control plane treats one probe. A part without a duration takes no time. -/
structure ProbeCourse where
  openDelay : Option Nat := none
  opening : Response Unit := .answer ()
  queryDelay : Option Nat := none
  query : Response Recommendation
  closeDelay : Option Nat := none
  closeFault : Option Fault := none
deriving DecidableEq, Repr

abbrev ProbeAnswer := Except ClientError Recommendation

inductive ProbePhase
  | opening (course : ProbeCourse)
  | querying (course : ProbeCourse)
  | closing (course : ProbeCourse) (answer : ProbeAnswer)

inductive ProbeNext
  | wait (phase : ProbePhase) (ms : Nat)
  | settled (answer : ProbeAnswer)
  | faulted (f : Fault)

/-- What a probe does with its session. -/
inductive ProbeDeed
  | opened
  | queried
  | closed
deriving DecidableEq, Repr

/-- One run of a probe between two waits: what it did with its session, and how it goes on. -/
structure ProbeStep where
  deeds : List ProbeDeed := []
  next : ProbeNext

/-- A run with a deed in front. -/
def ProbeStep.after (deed : ProbeDeed) (s : ProbeStep) : ProbeStep :=
  { s with deeds := deed :: s.deeds }

namespace ProbeCourse

/-- What a probe makes of the response to its query. -/
def outcome (c : ProbeCourse) : ProbeAnswer :=
  match c.query with
  | .answer r => .ok r
  | .refusal e => .error e.asDiscovery
  | .fault _ => .error (.discovery "recommended shard query panicked")

end ProbeCourse

namespace Probe

/-- The end of a probe whose session is closed. -/
def finish (c : ProbeCourse) (answer : ProbeAnswer) : ProbeNext :=
  match c.closeFault with
  | some f => .faulted f
  | none => .settled answer

def close (c : ProbeCourse) : ProbeStep :=
  { deeds := [.closed]
    next :=
      match c.closeDelay with
      | some ms => .wait (.closing c c.outcome) ms
      | none => finish c c.outcome }

/-- Asks, with the session open. -/
def query (c : ProbeCourse) : ProbeStep :=
  match c.queryDelay with
  | some ms => { deeds := [.queried], next := .wait (.querying c) ms }
  | none => (close c).after .queried

/-- Ends the opening of the session. -/
def enter (c : ProbeCourse) : ProbeStep :=
  match c.opening with
  | .answer _ => (query c).after .opened
  | .refusal e => { next := .settled (.error e.asDiscovery) }
  | .fault f => { next := .faulted f }

def start (c : ProbeCourse) : ProbeStep :=
  match c.openDelay with
  | some ms => { next := .wait (.opening c) ms }
  | none => enter c

def resume : ProbePhase → ProbeStep
  | .opening c => enter c
  | .querying c => close c
  | .closing c answer => { next := finish c answer }

end Probe

end GatewayClient
