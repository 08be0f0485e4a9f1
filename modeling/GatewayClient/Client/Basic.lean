import GatewayClient.ClientError
import GatewayClient.Credential
import GatewayClient.Pipeline.Registry
import GatewayClient.Settings.Basic

/-!
# Clients

What an application configures before it logs in: credential, account type, shard numbers,
connection options, the backoff of lookups and the listeners. A change that is refused leaves the
client as it was.
-/

namespace GatewayClient

structure Client where
  credential : Option Credential := none
  accountType : AccountType := .bot
  /-- The shard the client is pinned to, zero unless pinned, and the total. -/
  numbering : ShardAssignment := .unsharded
  waitForServersOnStartup : Bool := true
  trustAllCertificates : Bool := false
  proxy : ProxyConfig := {}
  /-- The gateway that a lookup recommended. -/
  endpoint : Option String := none
  backoff : Backoff := {}
  listeners : ListenerRegistry := {}

namespace Client

def setTotalShards (c : Client) (total : UInt32) : Except ClientError Client :=
  match c.numbering.withTotal total with
  | .ok numbering => .ok { c with numbering }
  | .error e => .error (.validation e)

def setCurrentShard (c : Client) (index : UInt32) : Except ClientError Client :=
  match c.numbering.withIndex index with
  | .ok numbering => .ok { c with numbering }
  | .error e => .error (.validation e)

/-- A client with another backoff; one that describes no wait is refused. -/
def setBackoff (c : Client) (backoff : Backoff) : Except ClientError Client :=
  match backoff.validate with
  | .ok _ => .ok { c with backoff }
  | .error e => .error (.configuration e.message)

/-- A client with one more listener, and the record of it. -/
def addListener (c : Client) (category : ListenerCategory) (listener : Sink) :
    Client × LogRecord :=
  let (listeners, record) := c.listeners.register category listener
  ({ c with listeners }, record)

/-- The record of a client that was configured from settings. -/
def configured (s : ClientSettings) : LogRecord :=
  { level := .debug, message := "client configured from settings",
    fields := [("settings", s.inspect)] }

/-- The client that settings describe. Settings that do not go together are refused. -/
def ofSettings (s : ClientSettings) : Except ClientError Client := do
  match s.validate with
  | .error conflict => .error (.configuration conflict.report)
  | .ok _ =>
    match ShardAssignment.ofPair s.currentShard s.totalShards with
    | .error e => .error (.validation e)
    | .ok numbering =>
      let client : Client :=
        { credential := s.token.map Credential.mk
          accountType := s.accountType
          numbering
          waitForServersOnStartup := s.waitForServersOnStartup
          trustAllCertificates := s.trustAllCertificates
          proxy := s.proxy }
      client.setBackoff s.discovery

def inspect (c : Client) : String :=
  Text.inspectOpenRecord "ClientBuilder"
    [("credential", Text.inspectOption (c.credential.map Credential.inspect)),
     ("account_type", c.accountType.inspect),
     ("shards", c.numbering.inspect),
     ("endpoint", Text.inspectOption (c.endpoint.map Text.quote)),
     ("listeners", toString c.listeners.count)]

end Client

end GatewayClient
