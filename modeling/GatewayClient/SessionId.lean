import GatewayClient.Text.Inspect

/-!
# Session ids
-/

namespace GatewayClient

/-- The name of a session, any text. -/
structure SessionId where
  text : String
deriving DecidableEq, Repr

namespace SessionId

def display (id : SessionId) : String := id.text

def inspect (id : SessionId) : String := "SessionId(" ++ Text.quote id.text ++ ")"

end SessionId

end GatewayClient
