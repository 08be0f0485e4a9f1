/-!
# Faults

A function or a listener that breaks off raises a fault. It unwinds through the calls around it
until one of them contains it. Most faults carry a text.
-/

namespace GatewayClient

/-- What a call that broke off leaves behind. -/
inductive Fault
  | text (message : String)
  | wordless
deriving DecidableEq, Repr

/-- The text under which a contained fault is logged. -/
def Fault.reason : Fault → String
  | .text message => message
  | .wordless => "unknown panic"

@[simp] theorem Fault.reason_text (message : String) : (text message).reason = message := rfl

@[simp] theorem Fault.reason_wordless : wordless.reason = "unknown panic" := rfl

end GatewayClient
