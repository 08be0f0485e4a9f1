/-!
# Credentials

A login token. Its display and inspection texts are the same for every token.
-/

namespace GatewayClient

structure Credential where
  token : String
deriving DecidableEq, Repr

namespace Credential

def display (_ : Credential) : String := "***"

def inspect (_ : Credential) : String := "Credential(***)"

end Credential

end GatewayClient
