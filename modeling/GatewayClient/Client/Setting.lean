import GatewayClient.Client.Basic

/-!
# Setting a client
-/

namespace GatewayClient

/-- One thing that an application sets on a client. -/
inductive ClientSetting
  | token (text : String)
  | accountType (a : AccountType)
  | totalShards (n : UInt32)
  | currentShard (n : UInt32)
  | waitForServers (b : Bool)
  | trustAllCertificates (b : Bool)
  | proxy (p : ProxyConfig)
  | endpoint (address : String)
  | backoff (b : Backoff)

/-- A client with a setting, or why the setting is refused. -/
def Client.set (c : Client) : ClientSetting → Except ClientError Client
  | .token text => .ok { c with credential := some ⟨text⟩ }
  | .accountType accountType => .ok { c with accountType }
  | .totalShards n => c.setTotalShards n
  | .currentShard n => c.setCurrentShard n
  | .waitForServers b => .ok { c with waitForServersOnStartup := b }
  | .trustAllCertificates b => .ok { c with trustAllCertificates := b }
  | .proxy proxy => .ok { c with proxy }
  | .endpoint address => .ok { c with endpoint := some address }
  | .backoff b => c.setBackoff b

end GatewayClient
