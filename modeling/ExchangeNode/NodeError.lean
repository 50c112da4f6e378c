import ExchangeNode.Wire.Request
import ExchangeNode.Wire.Error

/-!
# Failures of a node's operations
-/

namespace ExchangeNode

inductive NodeError where
  | wire (error : WireError)
  | notRegistered
  | busNotOpen
  | invalidNodeNumber (n : Int)
  | timeout (method : Method) (seconds : Nat)
  /-- The service answered and declined. -/
  | rejected (reason : String)
  | configuration (reason : String)
  deriving DecidableEq, Repr

namespace NodeError

def message : NodeError → String
  | .wire error => error.message
  | .notRegistered => "Node is not registered"
  | .busNotOpen => "Message bus is not open"
  | .invalidNodeNumber n => "Invalid node number " ++ toString n ++ " (must be 0..=1023)"
  | .timeout method seconds => method.name ++ " timed out after " ++ toString seconds ++ "s"
  | .rejected reason => "Rejected: " ++ reason
  | .configuration reason => "Config error: " ++ reason

end NodeError

end ExchangeNode
