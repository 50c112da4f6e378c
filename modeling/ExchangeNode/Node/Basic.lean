import ExchangeNode.Negotiation.Client
import ExchangeNode.Session.Step
import ExchangeNode.StopSwitch

/-!
# Nodes

A node is a session together with the clients that its user has opened. The clients take their ids
from the session's generator, and their proposals are tracked by the session. Their operations run
as jobs beside those of the session.
-/

namespace ExchangeNode

/-- An operation of a client that is under way. -/
inductive Errand where
  /-- The exchange of a client that is about to be opened has yet to be reached. -/
  | dialing (client : Nat) (channelType : UInt32) (argument : String) (patience : Duration)
  /-- It waits for the answer to its call. Meanwhile a subscription may already be called off. -/
  | asking (client : Nat) (pending : Pending) (wait : Wait) (switch : StopSwitch)
  /-- A subscription that has been accepted takes one record after the other. -/
  | receiving (guarded : Bool) (switch : StopSwitch)
  deriving DecidableEq, Repr

namespace Errand

def wait? : Errand → Option Wait
  | .asking _ _ wait _ => some wait
  | _ => none

/-- What is done to the switch of a subscription reaches it at any time. -/
def signal (signal : StopSwitch.Signal) : Errand → Errand
  | .asking client pending wait switch => .asking client pending wait (switch.after signal)
  | .receiving guarded switch => .receiving guarded (switch.after signal)
  | errand => errand

end Errand

structure Node where
  session : Session
  clients : Table Client
  errands : Table Errand
  deriving DecidableEq, Repr

namespace Node

inductive Event where
  | session (event : Session.Event)
  /-- Open a client under a number, at an address that has to be dialed first. -/
  | dial (job client : Nat) (address : String) (channelType : UInt32) (argument : String)
    (patience : Duration)
  | dialed (job : Nat) (result : Except WireError Unit)
  /-- Open a client under a number, at an exchange that has been reached. -/
  | connect (job client : Nat) (channelType : UInt32) (argument : String) (patience : Duration)
  | operate (job client : Nat) (operation : Operation)
  | answer (call : Nat) (reply : Reply)
  | timeout (call : Nat)
  /-- The next item of a subscription: a record, a failure, or the end. -/
  | item (job : Nat) (item : Option (Except WireError Item))
  /-- Turn the switch of a subscription, or let go of it. -/
  | signal (job : Nat) (signal : StopSwitch.Signal)
  /-- A subscription heeds that it was called off. -/
  | heed (job : Nat)
  | abandon (job : Nat)
  | elapse (millis : Nat)

/-- Call a subscription off. -/
@[match_pattern]
abbrev Event.cancel (job : Nat) : Event := .signal job (.turn true)

def fresh (options : KeepAliveOptions) (world : Surroundings) : Node :=
  ⟨.fresh options world, .empty, .empty⟩

def errandWaiting? (n : Node) (call : Nat) : Option (Nat × Errand) :=
  n.errands.entries.find? fun entry => entry.2.wait?.any (·.call = call)

/-- All times at which something happens by itself. -/
def deadlines (n : Node) : List Nat :=
  n.session.deadlines ++ n.errands.entries.filterMap fun entry => entry.2.wait?.map (·.deadline)

end Node

end ExchangeNode
