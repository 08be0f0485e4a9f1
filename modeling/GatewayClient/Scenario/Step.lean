import GatewayClient.Client.Setting
import GatewayClient.Pipeline.Build
import GatewayClient.Scenario.Schedule

/-!
# Steps of a scenario

A scenario is a list of steps: calls of the client, changes of the collaborators, waits and
questions. Each step has an answer, and it shows what consumers received and what was logged while
it ran.
-/

namespace GatewayClient

/-- One step. A handle is stored under a name, `h`. -/
inductive Step
  | hub (s : HubStep)
  -- The collaborators and the clock.
  | gateway (shard : UInt32) (behaviour : GatewayBehaviour)
  | answers (courses : List ProbeCourse)
  | requests
  | probes
  | sessions
  | deliver (session : String) (category : ListenerCategory) (payload : Json)
  | advance (ms : Nat)
  | shutDown
  | cancel (token : String) (after : Option Nat)
  -- The client.
  | ofSettings (s : ClientSettings)
  | clone
  | set (s : ClientSetting)
  | client
  | addListener (category : ListenerCategory) (consumer : String) (reaction : Reaction)
  | addPipeline (category : ListenerCategory) (stage : String)
  | login (h : String)
  | loginShards (h : String) (shards : List UInt32)
  | loginAll (h : String)
  | loginMatching (h : String) (wanted : UInt32 → Bool)
  | discover (h : String) (token : Option String)
  -- Handles.
  | finished (h : String)
  | drop (h : String)
  | await (h : String) (again : Bool)
  | failedLogin (h : String) (error : ClientError)
  | failedLookup (h : String) (error : ClientError)
  -- Batches and lookups that are not a client's.
  | number (current total : UInt32)
  | renumber (current total : UInt32)
  | startBatch (h : String) (shards : List UInt32) (refusals : List (UInt32 × ClientError))
  | startShard (h : String) (index total : UInt32)
  | setBackoff (b : Backoff)
  | recordFailures (count : Nat)
  | probeOnce
  | runLookup (token : Option String)

/-- What a handle says of itself. -/
inductive HandleStatus
  | logins (finished : List (ShardAssignment × Bool))
  | lookup (finished : Bool)

namespace HandleStatus

/-- The inspection text of the handle of one login. -/
def inspectLogin (shard : ShardAssignment) (finished : Bool) : String :=
  Text.inspectRecord "PendingLogin"
    [("shard", shard.inspect), ("finished", Text.inspectBool finished)]

/-- The inspection text of the handle of a lookup. -/
def inspectLookup (finished : Bool) : String :=
  Text.inspectRecord "PendingDiscovery" [("finished", Text.inspectBool finished)]

end HandleStatus

inductive Answer
  | nothing
  | hub (a : HubAnswer)
  | broke (f : Fault)
  | stalled
  | requests (list : List ConnectionRequest)
  | probes (p : ControlPlane)
  | sessions (list : List Session)
  | noSuchSession
  | time (t : Nat)
  | refused (e : ClientError)
  | client (c : Client)
  | started (pending : List (ShardAssignment × Bool))
  | lookupStarted (finished : Bool)
  | lookupFailed
  | status (s : Option HandleStatus)
  | existed (b : Bool)
  | noSuchHandle
  | results (list : List (Except ClientError Finding)) (time : Option Nat)
  | misnumbered (e : ShardError)
  | renumbered (e : Option ShardError) (numbering : ShardAssignment)
  | batch (pending : Except ClientError (List (ShardAssignment × Bool)))
      (asked : List ShardAssignment) (numbering : ShardAssignment)
  | backoff (b : Backoff)
  | attempt (n : UInt32)
  | probed (answer : ProbeAnswer)
  | found (result : Except ClientError LookupReport) (attempt : UInt32) (time : Nat)

namespace Handle

/-- The pending outcomes of a handle, in order. -/
def pending : Handle → List Pending
  | logins list => list.map (·.2)
  | lookup p => [p]

end Handle

namespace World

/-! ## Handles -/

/-- The handle of a name. -/
def handle? (w : World) (h : String) : Option Handle :=
  (w.handles.find? (·.1 = h)).map (·.2)

/-- Forgets a handle; its tasks go on. -/
def forget (h : String) (w : World) : World :=
  { w with handles := w.handles.filter (·.1 ≠ h) }

/-- Stores a handle in place of an earlier one of the name. -/
def store (h : String) (handle : Handle) (w : World) : World :=
  { w with handles := (h, handle) :: (w.forget h).handles }

/-- The shards of logins with whether their outcome is there. -/
def finishedOf (w : World) (list : List (ShardAssignment × Pending)) :
    List (ShardAssignment × Bool) :=
  list.map fun p => (p.1, w.isFinished p.2)

def status (w : World) : Handle → HandleStatus
  | .logins list => .logins (w.finishedOf list)
  | .lookup p => .lookup (w.isFinished p)

/-! ## Logins -/

/-- Starts the task of a login, unless the login has failed. What the start notes stays even if no
task can be started. -/
def startLogin (s : LoginStart) (w : World) : World × Except Fault (ShardAssignment × Pending) :=
  let w := w.noteAll s.notes
  match s with
  | .failed shard e => (w, .ok (shard, .failed e))
  | .opening request =>
    match w.spawn (.connect request) with
    | .error f => (w, .error f)
    | .ok (id, w) => (w, .ok (request.shard, .task id))

/-- Starts logins in order, up to the first that cannot be started. -/
def startLogins :
    List LoginStart → World → World × Except Fault (List (ShardAssignment × Pending))
  | [], w => (w, .ok [])
  | s :: rest, w =>
    match w.startLogin s with
    | (w, .error f) => (w, .error f)
    | (w, .ok p) =>
      let (w, ps) := startLogins rest w
      (w, ps.map (p :: ·))

/-- Starts the logins of a batch and stores their handles, unless the call breaks off. -/
def startBatch (h : String) (b : LoginBatch) (w : World) :
    World × Except Fault (List (ShardAssignment × Bool)) :=
  match (w.noteAll b.announcement).startLogins b.starts with
  | (w, .error f) => (w, .error f)
  | (w, .ok pending) =>
    let w := w.store h (.logins pending)
    (w, .ok (w.finishedOf pending))

/-- Starts the logins of a batch and answers. -/
def answerBatch (h : String) (b : LoginBatch) (w : World) : World × Answer :=
  match w.startBatch h b with
  | (w, .error f) => (w, .broke f)
  | (w, .ok pending) => (w, .started pending)

/-- Starts the logins of a batch of the client, or refuses it. -/
def startClientBatch (h : String) (b : Except ClientError LoginBatch) (w : World) :
    World × Answer :=
  match b with
  | .error e => (w, .refused e)
  | .ok b => w.answerBatch h b

/-- Starts the lookup of the client and stores its handle, unless the call breaks off. -/
def startLookup (h : String) (token : Option String) (w : World) : World × Answer :=
  match w.client.lookup token with
  | .error e =>
    let pending : Pending := .failed e
    (w.store h (.lookup pending), .lookupStarted (w.isFinished pending))
  | .ok l =>
    match w.spawn (.lookup w.current l none) with
    | .error f => (w, .broke f)
    | .ok (id, w) => (w.store h (.lookup (.task id)), .lookupStarted (w.isFinished (.task id)))

/-- A request of a batch that is not a client's. -/
def plainRequest (shard : ShardAssignment) : ConnectionRequest :=
  { accountType := .bot
    credential := ⟨"tok"⟩
    shard
    waitForServersOnStartup := true
    proxy := {}
    trustAllCertificates := false
    endpoint := none
    listeners := [] }

/-- The request for a shard, unless it is refused. -/
def plainRequestOr (refusals : List (UInt32 × ClientError)) (shard : ShardAssignment) :
    Except ClientError ConnectionRequest :=
  match refusals.find? (·.1 = shard.index) with
  | some r => .error r.2
  | none => .ok (plainRequest shard)

/-! ## Waiting -/

/-- The time, as long as the clock runs. -/
def time? (w : World) : Option Nat :=
  if w.scheduler.running then some w.scheduler.now else none

/-- What polling a handle says after it has said its outcome. -/
def polledAgain : Except ClientError Finding :=
  .error (.internal "polled after completion")

/-- Resolves handles, each of them twice if asked to. -/
def resolve (pending : List Pending) (again : Bool) (w : World) : World × Answer :=
  match w.await patience (.resolve pending) with
  | (w, .resolved) =>
    let results := pending.filterMap w.result?
    let told := results.flatMap fun r => if again then [r, polledAgain] else [r]
    (w, .results told w.time?)
  | (w, _) => (w, .stalled)

/-- The request of the probes that are not a client's. -/
def plainProbe : ProbeRequest := ⟨⟨"tok"⟩, {}, false⟩

/-- The answer to a wait of the foreground. -/
def attained (w : World) : Attained → World × Answer
  | .resolved => (w, .nothing)
  | .slept => (w, .time w.scheduler.now)
  | .probed answer => (w, .probed answer)
  | .found retry result =>
    ({ w with retry }, .found result retry.attempt w.scheduler.now)
  | .faulted retry f => ({ w with retry := retry.getD w.retry }, .broke f)
  | .stalled => (w, .stalled)

/-- Waits for the foreground and answers. -/
def waitFor (fg : Foreground) (w : World) : World × Answer :=
  let (w, a) := w.await patience fg
  w.attained a

/-! ## Steps -/

/-- Answers a step of the hub. -/
def hubStep (s : HubStep) (w : World) : World × Answer :=
  let (hub, a) := w.hub.step Consumer.acts s
  ({ w with hub }, .hub a)

/-- Registers a listener with the client. -/
def listen (category : ListenerCategory) (listener : Sink) (w : World) : World :=
  let (client, record) := w.client.addListener category listener
  (w.setClient client).note record

/-- Brings an event to a session. -/
def deliverTo (session : String) (category : ListenerCategory) (payload : Json) (w : World) :
    World × Answer :=
  match w.gateway.sessions.find? (·.id.text = session) with
  | none => (w, .noSuchSession)
  | some s =>
    let e : GatewayEvent := ⟨category, s.shard.index, payload⟩
    let (hub, outcome) := w.hub.serve Consumer.acts (s.listenersFor category) e
    ({ w with hub }, .hub (.outcome outcome))

/-- The sessions in the order in which their connections started. -/
def sessionsInOrder (w : World) : List Session :=
  w.gateway.sessions.mergeSort fun a b => a.number ≤ b.number

def perform (w : World) : Step → World × Answer
  | .hub s => w.hubStep s
  | .gateway shard behaviour =>
    ({ w with gateway :=
        { w.gateway with behaviours := (shard, behaviour) :: w.gateway.behaviours } },
      .nothing)
  | .answers courses =>
    ({ w with plane := { w.plane with script := w.plane.script ++ courses } }, .nothing)
  | .requests =>
    ({ w with gateway := { w.gateway with requests := [] } }, .requests w.gateway.requests)
  | .probes => ({ w with plane := { w.plane with probes := [] } }, .probes w.plane)
  | .sessions => (w, .sessions w.sessionsInOrder)
  | .deliver session category payload => w.deliverTo session category payload
  | .advance ms =>
    if w.scheduler.running then w.waitFor (.sleep (w.scheduler.dueIn ms))
    else (w, .broke Scheduler.stopped)
  | .shutDown => ({ w with scheduler := w.scheduler.shutDown }, .nothing)
  | .cancel token none => ({ w with scheduler := w.scheduler.cancel token }, .nothing)
  | .cancel token (some ms) =>
    match w.spawn (.cancelAfter ms token) with
    | .error f => (w, .broke f)
    | .ok (_, w) => (w, .nothing)
  | .ofSettings s =>
    match Client.ofSettings s with
    | .error e => (w, .refused e)
    | .ok c => ((w.replaceClient c).note (Client.configured s), .nothing)
  | .clone => (w, .nothing)
  | .set s =>
    match w.client.set s with
    | .error e => (w, .refused e)
    | .ok c => (w.setClient c, .nothing)
  | .client => (w, .client w.client)
  | .addListener category consumer reaction =>
    let (c, hub) := w.hub.addConsumer consumer reaction
    ({ w with hub }.listen category (.consumer c), .nothing)
  | .addPipeline category stage =>
    match w.hub.find? stage with
    | .error f => (w, .broke f)
    | .ok id => (w.listen category (.stage id), .nothing)
  | .login h => w.answerBatch h { starts := [w.client.login] }
  | .loginShards h shards => w.startClientBatch h (w.client.loginShards shards)
  | .loginAll h => w.startClientBatch h w.client.loginAll
  | .loginMatching h wanted => w.startClientBatch h (w.client.loginMatching wanted)
  | .discover h token => w.startLookup h token
  | .finished h => (w, .status ((w.handle? h).map w.status))
  | .drop h => (w.forget h, .existed (w.handle? h).isSome)
  | .await h again =>
    match w.handle? h with
    | none => (w, .noSuchHandle)
    | some handle => (w.forget h).resolve handle.pending again
  | .failedLogin h e => w.answerBatch h { starts := [.failed .unsharded e] }
  | .failedLookup h e => (w.store h (.lookup (.failed e)), .lookupFailed)
  | .number current total =>
    match ShardAssignment.ofPair current total with
    | .error e => (w, .misnumbered e)
    | .ok numbering => ({ w with numbering }, .nothing)
  | .renumber current total =>
    match ShardAssignment.ofPair current total with
    | .error e => (w, .renumbered (some e) w.numbering)
    | .ok numbering => ({ w with numbering }, .renumbered none numbering)
  | .startBatch h shards refusals =>
    match LoginBatch.plan w.numbering (plainRequestOr refusals) shards with
    | .error e => (w, .batch (.error (.validation e)) [] w.numbering)
    | .ok b =>
      match w.startBatch h b with
      | (w, .error f) => (w, .broke f)
      | (w, .ok pending) => (w, .batch (.ok pending) b.asked w.numbering)
  | .startShard h index total =>
    match ShardAssignment.ofPair index total with
    | .error e => (w, .misnumbered e)
    | .ok shard => w.answerBatch h { starts := [.opening (plainRequest shard)] }
  | .setBackoff backoff => ({ w with backoff }, .backoff backoff)
  | .recordFailures count =>
    let retry := w.retry.recordFailures count
    ({ w with retry }, .attempt retry.attempt)
  | .probeOnce => w.waitFor (.probe plainProbe none)
  | .runLookup token =>
    w.waitFor (.lookup { request := plainProbe, backoff := w.backoff, token, retry := w.retry }
      none)

/-- What a step shows: its answer, what consumers received, and what was logged. -/
structure Shown where
  answer : Answer
  received : List Receipt
  journal : Journal

def turn (w : World) (s : Step) : World × Shown :=
  let (w, answer) :=
    { w with hub := { w.hub with received := [], journal := [] } }.perform s
  (w, ⟨answer, w.hub.received, w.hub.journal⟩)

def play (w : World) : List Step → World × List Shown
  | [] => (w, [])
  | s :: rest =>
    let (w, shown) := w.turn s
    let (w, more) := w.play rest
    (w, shown :: more)

end World

end GatewayClient
