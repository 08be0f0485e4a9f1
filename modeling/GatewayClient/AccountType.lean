import GatewayClient.Json.Decode

/-!
# Account types
-/

namespace GatewayClient

inductive AccountType
  | bot
  | client
deriving DecidableEq, Repr

namespace AccountType

def display : AccountType → String
  | bot => "bot"
  | client => "client"

def inspect : AccountType → String
  | bot => "Bot"
  | client => "Client"

def variants : List (String × AccountType) :=
  [("bot", bot), ("client", client)]

def toJson (a : AccountType) : Json := .str a.display

def ofJson : Json → Json.Decoded AccountType := Json.decodeVariant variants

/-- The account type of a name in any case. No letter outside the ASCII range has a lower case made
of the letters of these names, so ASCII case is enough. -/
def ofName? (name : String) : Option AccountType :=
  match String.ofList (name.toList.map Char.toLower) with
  | "bot" => some bot
  | "client" => some client
  | _ => none

end AccountType

end GatewayClient
