import GatewayClient.Json.Decode
import GatewayClient.Text.Inspect

/-!
# Proxy configuration

Which proxy a connection uses, and how the client authenticates at it. The password never stands
in an inspection text.
-/

namespace GatewayClient

/-- Where the proxy comes from. -/
inductive ProxyMode
  | none
  | system
  | url
deriving DecidableEq, Repr

namespace ProxyMode

def name : ProxyMode → String
  | none => "none"
  | system => "system"
  | url => "url"

def inspect : ProxyMode → String
  | none => "None"
  | system => "System"
  | url => "Url"

/-- The modes by their names. -/
def variants : List (String × ProxyMode) :=
  [("none", none), ("system", system), ("url", url)]

def ofJson : Json → Json.Decoded ProxyMode := Json.decodeVariant variants

end ProxyMode

/-- Name and password at a proxy. -/
structure ProxyCredentials where
  username : String
  password : String
deriving DecidableEq, Repr

namespace ProxyCredentials

def inspect (c : ProxyCredentials) : String :=
  Text.inspectRecord "ProxyCredentials"
    [("username", Text.quote c.username), ("password", Text.quote "***")]

def toJson (c : ProxyCredentials) : Json :=
  .obj [("password", .str c.password), ("username", .str c.username)]

/-- Credentials under construction; both fields are required. -/
structure Draft where
  username : Option String := none
  password : Option String := none

def fields : List (Json.Field Draft) :=
  [Json.field "username" Json.decodeString fun a r => { r with username := some a },
   Json.field "password" Json.decodeString fun a r => { r with password := some a }]

def finish (layout : Json.Layout) (r : Draft) : Json.Decoded ProxyCredentials := do
  let username ← Json.required "ProxyCredentials" 2 layout "username" r.username
  let password ← Json.required "ProxyCredentials" 2 layout "password" r.password
  .ok ⟨username, password⟩

def ofJson : Json → Json.Decoded ProxyCredentials :=
  Json.decodeRecord "ProxyCredentials" fields {} finish

end ProxyCredentials

/-- The proxy of a client. The URL counts only in the mode `url`. -/
structure ProxyConfig where
  mode : ProxyMode := .none
  url : Option String := none
  credentials : Option ProxyCredentials := none
deriving DecidableEq, Repr

namespace ProxyConfig

/-- The configuration for one fixed proxy. -/
def fixed (url : String) : ProxyConfig := { mode := .url, url := some url }

/-- The URL of the proxy in the mode `url`. -/
def fixedUrl? (p : ProxyConfig) : Option String :=
  if p.mode = .url then p.url else none

def inspect (p : ProxyConfig) : String :=
  Text.inspectRecord "ProxyConfig"
    [("mode", p.mode.inspect),
     ("url", Text.inspectOption (p.url.map Text.quote)),
     ("credentials", Text.inspectOption (p.credentials.map ProxyCredentials.inspect))]

/-- A URL and credentials that are missing have no entry. -/
def toJson (p : ProxyConfig) : Json :=
  .obj ((p.credentials.map fun c => ("credentials", c.toJson)).toList ++
    [("mode", .str p.mode.name)] ++ (p.url.map fun u => ("url", Json.str u)).toList)

def fields : List (Json.Field ProxyConfig) :=
  [Json.field "mode" ProxyMode.ofJson fun a r => { r with mode := a },
   Json.field "url" (Json.decodeOption Json.decodeString) fun a r => { r with url := a },
   Json.field "credentials" (Json.decodeOption ProxyCredentials.ofJson)
     fun a r => { r with credentials := a }]

def ofJson : Json → Json.Decoded ProxyConfig :=
  Json.decodeDefaulted "ProxyConfig" fields {}

end ProxyConfig

end GatewayClient
