import GatewayClient.Settings.Basic

/-!
# Settings as JSON

Every field has a default, so an object with a part of the fields decodes. A token that is missing
has no entry.
-/

namespace GatewayClient

namespace LoggingSettings

def toJson (l : LoggingSettings) : Json :=
  .obj [("json", .bool l.json), ("level", .str l.level)]

def fields : List (Json.Field LoggingSettings) :=
  [Json.field "level" Json.decodeString fun a r => { r with level := a },
   Json.field "json" Json.decodeBool fun a r => { r with json := a }]

def ofJson : Json → Json.Decoded LoggingSettings :=
  Json.decodeDefaulted "LoggingSettings" fields {}

end LoggingSettings

namespace ClientSettings

def toJson (s : ClientSettings) : Json :=
  .obj
    ([("accountType", s.accountType.toJson),
      ("currentShard", .ofInt s.currentShard.toNat),
      ("discovery", s.discovery.toJson),
      ("logging", s.logging.toJson),
      ("proxy", s.proxy.toJson)] ++
      (s.token.map fun t => ("token", Json.str t)).toList ++
      [("totalShards", .ofInt s.totalShards.toNat),
       ("trustAllCertificates", .bool s.trustAllCertificates),
       ("waitForServersOnStartup", .bool s.waitForServersOnStartup)])

def fields : List (Json.Field ClientSettings) :=
  [Json.field "token" (Json.decodeOption Json.decodeString) fun a r => { r with token := a },
   Json.field "accountType" AccountType.ofJson fun a r => { r with accountType := a },
   Json.field "currentShard" Json.decodeUInt32 fun a r => { r with currentShard := a },
   Json.field "totalShards" Json.decodeUInt32 fun a r => { r with totalShards := a },
   Json.field "waitForServersOnStartup" Json.decodeBool
     fun a r => { r with waitForServersOnStartup := a },
   Json.field "trustAllCertificates" Json.decodeBool
     fun a r => { r with trustAllCertificates := a },
   Json.field "proxy" ProxyConfig.ofJson fun a r => { r with proxy := a },
   Json.field "discovery" Backoff.ofJson fun a r => { r with discovery := a },
   Json.field "logging" LoggingSettings.ofJson fun a r => { r with logging := a }]

def ofJson : Json → Json.Decoded ClientSettings :=
  Json.decodeDefaulted "ClientSettings" fields {}

end ClientSettings

end GatewayClient
