import GatewayClient.Shard.Assignment
import GatewayClient.Text.TaskNumber

/-!
# Client errors
-/

namespace GatewayClient

inductive ClientError
  | configuration (reason : String)
  | validation (cause : ShardError)
  | usage (reason : String)
  | discovery (reason : String)
  | connection (reason : String)
  | cancelled
  | internal (reason : String)
deriving DecidableEq, Repr

namespace ClientError

def message : ClientError → String
  | configuration reason => "Configuration error: " ++ reason
  | validation cause => "Validation error: " ++ cause.message
  | usage reason => "Usage error: " ++ reason
  | discovery reason => "Discovery error: " ++ reason
  | connection reason => "Connection error: " ++ reason
  | cancelled => "Operation cancelled"
  | internal reason => "Internal error: " ++ reason

/-- The message as it is told to others. -/
def told (e : ClientError) : String := Text.hideTaskNumbers e.message

/-- The word for the kind of error in log records. -/
def category : ClientError → String
  | configuration _ => "configuration"
  | validation _ => "validation"
  | usage _ => "usage"
  | discovery _ => "discovery"
  | connection _ => "connection"
  | cancelled => "cancelled"
  | internal _ => "internal"

/-- The error of a lookup: errors of other kinds are told by their message. -/
def asDiscovery : ClientError → ClientError
  | discovery reason => discovery reason
  | other => discovery other.message

end ClientError

end GatewayClient
