import GatewayClient.Client.Basic
import GatewayClient.Shard.Batch

/-!
# Logins

A login starts one connection for a shard; a batch starts several or is refused as a whole. What a
connection is opened with is fixed when the login is called. Of a pinned client, and of a request
that cannot be made, the login has failed before any connection starts.
-/

namespace GatewayClient

structure ConnectionRequest where
  accountType : AccountType
  credential : Credential
  shard : ShardAssignment
  waitForServersOnStartup : Bool
  proxy : ProxyConfig
  trustAllCertificates : Bool
  endpoint : Option String
  /-- By category and then in the order of registration. -/
  listeners : List (ListenerCategory × Sink)

def ConnectionRequest.inspect (r : ConnectionRequest) : String :=
  Text.inspectRecord "ConnectionRequest"
    [("account_type", r.accountType.inspect),
     ("credential", r.credential.inspect),
     ("shard", r.shard.inspect),
     ("wait_for_servers_on_startup", Text.inspectBool r.waitForServersOnStartup),
     ("proxy", r.proxy.inspect),
     ("trust_all_certificates", Text.inspectBool r.trustAllCertificates),
     ("endpoint", Text.inspectOption (r.endpoint.map Text.quote)),
     ("listeners", toString r.listeners.length)]

/-- The start of a login: a connection to open, or a failure. -/
inductive LoginStart
  | opening (request : ConnectionRequest)
  | failed (shard : ShardAssignment) (error : ClientError)

namespace LoginStart

def shard : LoginStart → ShardAssignment
  | opening request => request.shard
  | failed shard _ => shard

/-- The start of a shard whose request was made or could not be. -/
def ofRequest (shard : ShardAssignment) : Except ClientError ConnectionRequest → LoginStart
  | .ok request => opening request
  | .error e => failed shard e

/-- The record of a connection that starts, inside the span of its shard. -/
def creating (shard : ShardAssignment) : LogRecord :=
  { level := .debug
    message := "creating shard " ++ toString shard.ordinal ++ " of " ++
      toString shard.total.toNat
    spans := ["shard"] }

def notes : LoginStart → Journal
  | opening request => [creating request.shard]
  | failed _ _ => []

end LoginStart

/-- A batch of logins that was not refused. -/
structure LoginBatch where
  /-- The shards for which a request was asked. -/
  asked : List ShardAssignment := []
  starts : List LoginStart := []
  announcement : Journal := []

namespace LoginBatch

/-- The reason for which every login of a batch of a pinned client fails. -/
def pinned : ClientError :=
  .usage "batch login is not allowed after pinning the current shard"

theorem pinned_eq_usage :
    pinned = .usage "batch login is not allowed after pinning the current shard" := rfl

/-- The record of a batch: of all shards, or of some of them. -/
def announce (total : UInt32) (shards : List UInt32) : LogRecord :=
  let count := toString shards.length
  let message :=
    if shards.length = total.toNat then
      "creating " ++ toString total.toNat ++ " " ++ (if total = 1 then "shard" else "shards")
    else
      "creating " ++ count ++ " out of " ++ toString total.toNat ++ " shards (" ++
        Text.inspectList (shards.map fun s => toString s.toNat) ++ ")"
  { level := .info, message }

/-- The logins of a batch under the numbers of a client. An empty batch starts nothing. -/
def plan (numbering : ShardAssignment)
    (request : ShardAssignment → Except ClientError ConnectionRequest) (shards : List UInt32) :
    Except ShardError LoginBatch :=
  if shards.isEmpty then .ok {}
  else
    (Batch.validate numbering.total shards).map fun assignments =>
      let announcement := [announce numbering.total shards]
      if numbering.index = 0 then
        { asked := assignments
          starts := assignments.map fun a => .ofRequest a (request a)
          announcement }
      else
        { starts := assignments.map fun a => .failed a pinned, announcement }

def notes (b : LoginBatch) : Journal :=
  b.announcement ++ b.starts.flatMap LoginStart.notes

end LoginBatch

namespace Client

/-- The request for a shard, with the configuration of this moment. -/
def request (c : Client) (shard : ShardAssignment) : Except ClientError ConnectionRequest :=
  match c.credential with
  | none => .error (.configuration "cannot login without a token")
  | some credential =>
    .ok
      { accountType := c.accountType
        credential
        shard
        waitForServersOnStartup := c.waitForServersOnStartup
        proxy := c.proxy
        trustAllCertificates := c.trustAllCertificates
        endpoint := c.endpoint
        listeners := c.listeners.snapshot }

def login (c : Client) : LoginStart :=
  .ofRequest c.numbering (c.request c.numbering)

def loginShards (c : Client) (shards : List UInt32) : Except ClientError LoginBatch :=
  match LoginBatch.plan c.numbering c.request shards with
  | .ok batch => .ok batch
  | .error e => .error (.validation e)

/-- The logins of the shards of which a condition holds, in increasing order. The total by which
the shards are listed and the numbers by which the batch is validated are read of one state of the
client: a condition is a function of the index and has no way to the client, so nothing is set
between the two readings. -/
def loginMatching (c : Client) (wanted : UInt32 → Bool) : Except ClientError LoginBatch :=
  c.loginShards (((List.range c.numbering.total.toNat).map Nat.toUInt32).filter wanted)

def loginAll (c : Client) : Except ClientError LoginBatch :=
  c.loginMatching fun _ => true

end Client

end GatewayClient
