import GatewayClient.AccountType
import GatewayClient.Backoff
import GatewayClient.Proxy
import GatewayClient.Shard.Assignment

/-!
# Client settings

The settings of a client, their defaults, the constraints between them and their inspection text,
in which neither the token nor the proxy password stands.
-/

namespace GatewayClient

structure LoggingSettings where
  /-- The filter that counts when the environment names none. -/
  level : String := "warn"
  json : Bool := false
deriving DecidableEq, Repr

def LoggingSettings.inspect (l : LoggingSettings) : String :=
  Text.inspectRecord "LoggingSettings"
    [("level", Text.quote l.level), ("json", Text.inspectBool l.json)]

structure ClientSettings where
  token : Option String := none
  accountType : AccountType := .bot
  currentShard : UInt32 := 0
  totalShards : UInt32 := 1
  waitForServersOnStartup : Bool := true
  trustAllCertificates : Bool := false
  proxy : ProxyConfig := {}
  discovery : Backoff := {}
  logging : LoggingSettings := {}
deriving DecidableEq, Repr

inductive SettingsConflict
  | shards (cause : ShardError)
  | proxyWithoutUrl
  | discovery (cause : BackoffError)
deriving DecidableEq, Repr

def SettingsConflict.message : SettingsConflict → String
  | .shards cause => cause.message
  | .proxyWithoutUrl => "proxy mode \"url\" requires proxy.url"
  | .discovery cause => "discovery." ++ cause.message

/-- What a conflict is called in front of its message. -/
def SettingsConflict.report (c : SettingsConflict) : String :=
  "invalid settings value: " ++ c.message

namespace ClientSettings

/-- The shard numbers, then the proxy, then the backoff of lookups are checked; the first conflict
is the result. -/
def validate (s : ClientSettings) : Except SettingsConflict Unit :=
  match ShardAssignment.ofPair s.currentShard s.totalShards with
  | .error e => .error (.shards e)
  | .ok _ =>
    if s.proxy.mode = .url ∧ s.proxy.url = none then .error .proxyWithoutUrl
    else
      match s.discovery.validate with
      | .error e => .error (.discovery e)
      | .ok _ => .ok ()

def inspect (s : ClientSettings) : String :=
  Text.inspectRecord "ClientSettings"
    [("token", Text.inspectOption (s.token.map fun _ => Text.quote "***")),
     ("account_type", s.accountType.inspect),
     ("current_shard", toString s.currentShard.toNat),
     ("total_shards", toString s.totalShards.toNat),
     ("wait_for_servers_on_startup", Text.inspectBool s.waitForServersOnStartup),
     ("trust_all_certificates", Text.inspectBool s.trustAllCertificates),
     ("proxy", s.proxy.inspect),
     ("discovery", s.discovery.inspect),
     ("logging", s.logging.inspect)]

end ClientSettings

end GatewayClient
