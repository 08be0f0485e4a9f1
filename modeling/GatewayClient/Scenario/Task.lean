import GatewayClient.Scenario.World

/-!
# Running tasks

A task runs from one wait to the next, or to its end, without another task in between. Running it
changes the collaborators, the journal and, when a lookup applies what it found, the total and the
endpoint of the client that started it. These two are written one after the other, each under a lock
of its own; only where tasks share one thread does nothing come between.
-/

namespace GatewayClient

/-- What a run of a task came to. -/
inductive Progress
  /-- The task sleeps, and may be woken by a token. -/
  | asleep (work : Work) (ms : Nat) (token : Option String)
  | ended (ending : Ending)

namespace World

/-! ## Connections -/

def openSession (number : Nat) (request : ConnectionRequest) (response : Response Unit)
    (w : World) : World × Progress :=
  match response with
  | .fault f => (w, .ended (.faulted f))
  | .refusal e => (w, .ended (.returned (.error e)))
  | .answer _ =>
    let session : Session := ⟨number, request.shard, request.listeners⟩
    ({ w with gateway := { w.gateway with sessions := w.gateway.sessions ++ [session] } },
      .ended (.returned (.ok (.session session))))

/-- The record of a connection that starts. -/
def handshake : LogRecord :=
  { level := .info, message := "handshake", spans := ["shard"] }

def connect (request : ConnectionRequest) (w : World) : World × Progress :=
  let number := w.gateway.taken + 1
  let behaviour := w.gateway.behaviour request.shard.index
  let gateway :=
    { w.gateway with taken := number, requests := w.gateway.requests ++ [request] }
  let w := { w with gateway }.note handshake
  match behaviour.delay with
  | some ms => (w, .asleep (.opening number request behaviour.response) ms none)
  | none => w.openSession number request behaviour.response

/-! ## Lookups -/

/-- Does to the world what a step of a lookup did. -/
def book (s : LookupStep) (w : World) : World :=
  { w with plane := w.plane.tally s.deeds }.noteAll s.notes

/-- One run of a lookup: a start or the end of a backoff begins an attempt, unless the token is
cancelled. -/
def stepLookup (l : Lookup) (phase : Option LookupPhase) (wake : Wake) (w : World) :
    World × LookupStep :=
  let attempt : World × LookupStep :=
    if w.scheduler.isCancelled l.token then (w, l.cancel [])
    else
      let (course, plane) := w.plane.take w.scheduler.now l.request
      ({ w with plane }, l.attempt course)
  let (w, step) :=
    match phase, wake with
    | some (.probing p), _ => (w, l.resume p)
    | some (.backingOff n), .token => (w, l.cancel [Lookup.interrupted n])
    | some (.backingOff _), _ => attempt
    | none, _ => attempt
  let step := step.heed (w.scheduler.isCancelled l.token)
  (w.book step, step)

/-- The token for which a lookup in a phase listens. -/
def tokenOf (l : Lookup) : LookupPhase → Option String
  | .probing _ => none
  | .backingOff _ => l.token

/-- Writes a recommended total, if it goes with the shard that the client has now. -/
def writeTotal (id : ClientId) (r : Recommendation) (w : World) : Except ClientError World :=
  match ((w.clients[id]?).getD {}).setTotalShards r.shardCount with
  | .error e => .error e
  | .ok client => .ok { w with clients := w.clients.setIfInBounds id client }

/-- Writes a recommended endpoint, whatever the total is by now. -/
def writeEndpoint (id : ClientId) (r : Recommendation) (w : World) : World :=
  let client := { (w.clients[id]?).getD {} with endpoint := some r.endpoint }
  { w with clients := w.clients.setIfInBounds id client }

/-- Applies what a lookup found to the client that started it: both writes, with nothing between them
as the tasks of a world share one thread. -/
def applyReport (id : ClientId) (report : LookupReport) (w : World) :
    World × Except ClientError Finding :=
  match w.writeTotal id report.recommendation with
  | .error e => (w, .error e)
  | .ok w =>
    ((w.writeEndpoint id report.recommendation).note (Client.applied report),
      .ok (.total report.recommendation.shardCount))

/-- One run of the lookup of a client. -/
def runLookup (id : ClientId) (l : Lookup) (phase : Option LookupPhase) (wake : Wake)
    (w : World) : World × Progress :=
  let (w, step) := w.stepLookup l phase wake
  match step.next with
  | .wait phase ms =>
    (w, .asleep (.lookup id step.lookup (some phase)) ms (tokenOf step.lookup phase))
  | .faulted f => (w, .ended (.faulted f))
  | .returned (.error e) => (w, .ended (.returned (.error e)))
  | .returned (.ok report) =>
    let (w, result) := w.applyReport id report
    (w, .ended (.returned result))

/-! ## Tasks -/

/-- One run of the work of a task. -/
def run (work : Work) (wake : Wake) (w : World) : World × Progress :=
  match work with
  | .connect request => w.connect request
  | .opening number request response => w.openSession number request response
  | .lookup id l phase => w.runLookup id l phase wake
  | .cancelAfter ms token => (w, .asleep (.cancelNow token) ms none)
  | .cancelNow token =>
    ({ w with scheduler := w.scheduler.cancel token }, .ended (.returned (.ok .nothing)))

/-- Runs a task that has not ended. -/
def runTask (id : TaskId) (wake : Wake) (w : World) : World :=
  match w.scheduler.tasks[id]? with
  | some (.live work) =>
    match w.run work wake with
    | (w, .asleep work ms token) =>
      { w with scheduler := w.scheduler.sleep id work ms token }
    | (w, .ended ending) => { w with scheduler := w.scheduler.finish id ending }
  | _ => w

/-- Runs queued tasks, those that come into the queue meanwhile too, at most `fuel` of them. -/
def drain : Nat → World → World
  | 0, w => w
  | fuel + 1, w =>
    match w.scheduler.queue with
    | [] => w
    | (id, wake) :: rest =>
      drain fuel ({ w with scheduler := { w.scheduler with queue := rest } }.runTask id wake)

end World

end GatewayClient
