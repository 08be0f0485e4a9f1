import GatewayClient.Client.Login
import GatewayClient.Client.Lookup
import GatewayClient.Pipeline.Delivery
import GatewayClient.SessionId

/-!
# The world of a scenario

A scenario runs clients against a gateway and a control plane whose behaviour is given, under a
clock that moves only when nothing else can. The world holds the clients, both collaborators, the
tasks that calls have started, and the handles through which their outcomes are asked for.
-/

namespace GatewayClient

/-! ## Collaborators -/

/-- How the gateway treats a connection for a shard. -/
structure GatewayBehaviour where
  delay : Option Nat := none
  response : Response Unit := .answer ()

structure Session where
  number : Nat
  shard : ShardAssignment
  listeners : List (ListenerCategory × Sink)

namespace Session

def id (s : Session) : SessionId := ⟨"s" ++ toString s.number⟩

/-- The listeners of a category, in the order of the request. -/
def listenersFor (s : Session) (category : ListenerCategory) : List Sink :=
  (s.listeners.filter (·.1 = category)).map (·.2)

end Session

/-- The gateway: its behaviour by shard, the newest first, and what it has seen. -/
structure Gateway where
  behaviours : List (UInt32 × GatewayBehaviour) := []
  /-- How many connections have been started. -/
  taken : Nat := 0
  /-- The requests since they were last asked for. -/
  requests : List ConnectionRequest := []
  sessions : List Session := []

/-- How the gateway treats connections for a shard now. -/
def Gateway.behaviour (g : Gateway) (shard : UInt32) : GatewayBehaviour :=
  match g.behaviours.find? (·.1 = shard) with
  | some b => b.2
  | none => {}

/-- A probe that the control plane has seen, and when. -/
structure SeenProbe where
  time : Nat
  request : ProbeRequest

/-- The control plane: the courses of the coming probes, and what it has seen. -/
structure ControlPlane where
  script : List ProbeCourse := []
  /-- The probes since they were last asked for. -/
  probes : List SeenProbe := []
  opened : Nat := 0
  closed : Nat := 0

namespace ControlPlane

/-- The course of a probe for which the script has none. -/
def exhausted : ProbeCourse :=
  { query := .refusal (.discovery "script exhausted") }

def take (p : ControlPlane) (now : Nat) (request : ProbeRequest) : ProbeCourse × ControlPlane :=
  let seen := p.probes ++ [⟨now, request⟩]
  match p.script with
  | [] => (exhausted, { p with probes := seen })
  | course :: rest => (course, { p with script := rest, probes := seen })

def tally (p : ControlPlane) (deeds : List ProbeDeed) : ControlPlane :=
  { p with
    opened := p.opened + deeds.count .opened
    closed := p.closed + deeds.count .closed }

end ControlPlane

/-! ## Tasks -/

abbrev ClientId := Nat

abbrev TaskId := Nat

inductive Work
  | connect (request : ConnectionRequest)
  | opening (number : Nat) (request : ConnectionRequest) (response : Response Unit)
  /-- Starts or continues a lookup and applies what it finds to a client. -/
  | lookup (client : ClientId) (lookup : Lookup) (phase : Option LookupPhase)
  /-- Waits and then cancels a token. -/
  | cancelAfter (ms : Nat) (token : String)
  | cancelNow (token : String)

inductive Finding
  | session (s : Session)
  | total (n : UInt32)
  | nothing

inductive Ending
  | returned (result : Except ClientError Finding)
  | faulted (f : Fault)
  | aborted

/-- What an ended task means to the holder of its handle. The number of a task is not told: `N`
stands for it. -/
def Ending.result : Ending → Except ClientError Finding
  | returned result => result
  | faulted (.text message) =>
    .error (.internal
      ("task panicked: task N panicked with message " ++ Text.quote message))
  | faulted .wordless => .error (.internal "task panicked: task N panicked")
  | aborted => .error (.internal "task aborted: task N was cancelled")

inductive Wake
  | started
  | timer
  | token
deriving DecidableEq, Repr

/-- A task is queued or asleep with work to do, or it has ended. -/
inductive Task
  | live (work : Work)
  | ended (ending : Ending)

/-- A task that waits for a time, and perhaps for a token. -/
structure Sleeper where
  task : TaskId
  due : Nat
  token : Option String

structure Scheduler where
  now : Nat := 0
  /-- Nothing is started and nothing waits any more after a shutdown. -/
  running : Bool := true
  tasks : Array Task := #[]
  /-- The tasks that can run, first in first out. -/
  queue : List (TaskId × Wake) := []
  /-- The tasks asleep, in the order in which they went to sleep. -/
  sleepers : List Sleeper := []
  cancelled : List String := []

namespace Scheduler

/-- A token that may be missing is cancelled. -/
def isCancelled (r : Scheduler) : Option String → Bool
  | some token => r.cancelled.contains token
  | none => false

/-- The fault of a call that would start a task or a wait after a shutdown. -/
def stopped : Fault :=
  .text
    "there is no reactor running, must be called from the context of a Tokio 1.x runtime"

/-- Starts a task, as long as the clock runs. -/
def spawn (work : Work) (r : Scheduler) : Except Fault (TaskId × Scheduler) :=
  let id := r.tasks.size
  if r.running then
    .ok (id, { r with tasks := r.tasks.push (.live work), queue := r.queue ++ [(id, .started)] })
  else .error stopped

/-- Cancels a token and queues the tasks that wait for it. -/
def cancel (token : String) (r : Scheduler) : Scheduler :=
  let (woken, asleep) := r.sleepers.partition (·.token = some token)
  { r with
    cancelled := token :: r.cancelled
    queue := r.queue ++ woken.map fun s => (s.task, .token)
    sleepers := asleep }

/-- Moves the clock to a time and queues the tasks that are due. -/
def moveTo (time : Nat) (r : Scheduler) : Scheduler :=
  let now := Nat.max r.now time
  let (due, asleep) := r.sleepers.partition (·.due ≤ now)
  { r with now, queue := r.queue ++ due.map fun s => (s.task, .timer), sleepers := asleep }

/-- The longest wait in milliseconds: thirty years of 365 days. -/
def longestWait : Nat := 30 * 365 * 86400000

/-- The time at which a wait ends that begins now. A wait that would be too long is cut short. -/
def dueIn (ms : Nat) (r : Scheduler) : Nat := r.now + Nat.min ms longestWait

def nextDue? (r : Scheduler) : Option Nat :=
  (r.sleepers.map (·.due)).min?

def sleep (id : TaskId) (work : Work) (ms : Nat) (token : Option String) (r : Scheduler) :
    Scheduler :=
  { r with
    tasks := r.tasks.setIfInBounds id (.live work)
    sleepers := r.sleepers ++ [⟨id, r.dueIn ms, token⟩] }

def finish (id : TaskId) (ending : Ending) (r : Scheduler) : Scheduler :=
  { r with tasks := r.tasks.setIfInBounds id (.ended ending) }

def ending? (r : Scheduler) (id : TaskId) : Option Ending :=
  match r.tasks[id]? with
  | some (.ended ending) => some ending
  | _ => none

/-- Aborts every task that has not ended. -/
def shutDown (r : Scheduler) : Scheduler :=
  let stop : Task → Task
    | .live _ => .ended .aborted
    | task => task
  { r with running := false, tasks := r.tasks.map stop, queue := [], sleepers := [] }

end Scheduler

/-! ## Handles -/

/-- What a handle stands for: a task, or a failure before there was one. -/
inductive Pending
  | task (id : TaskId)
  | failed (error : ClientError)

/-- The handles that one call gave. -/
inductive Handle
  | logins (pending : List (ShardAssignment × Pending))
  | lookup (pending : Pending)

/-! ## The world -/

structure World where
  hub : Hub := {}
  clients : Array Client := #[{}]
  /-- The client that calls are made on. -/
  current : ClientId := 0
  gateway : Gateway := {}
  plane : ControlPlane := {}
  scheduler : Scheduler := {}
  handles : List (String × Handle) := []
  /-- The numbers of the batches that are not a client's. -/
  numbering : ShardAssignment := .unsharded
  /-- The backoff and the counter of the lookups that are not a client's. -/
  backoff : Backoff := {}
  retry : RetryCounter := {}

namespace World

def note (record : LogRecord) (w : World) : World :=
  { w with hub := w.hub.note record }

def noteAll (records : Journal) (w : World) : World :=
  { w with hub := { w.hub with journal := w.hub.journal ++ records } }

/-- The client that calls are made on. -/
def client (w : World) : Client := (w.clients[w.current]?).getD {}

/-- Writes the client that calls are made on. -/
def setClient (c : Client) (w : World) : World :=
  { w with clients := w.clients.setIfInBounds w.current c }

/-- Makes a new client the one that calls are made on. -/
def replaceClient (c : Client) (w : World) : World :=
  { w with clients := w.clients.push c, current := w.clients.size }

/-- Starts a task, as long as the clock runs. -/
def spawn (work : Work) (w : World) : Except Fault (TaskId × World) :=
  (w.scheduler.spawn work).map fun s => (s.1, { w with scheduler := s.2 })

/-- What a pending handle resolves to, once it can. -/
def result? (w : World) : Pending → Option (Except ClientError Finding)
  | .failed e => some (.error e)
  | .task id => (w.scheduler.ending? id).map Ending.result

/-- The outcome of a pending handle is there. -/
def isFinished (w : World) (p : Pending) : Bool := (w.result? p).isSome

end World

end GatewayClient
