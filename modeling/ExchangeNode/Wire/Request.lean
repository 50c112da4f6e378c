import ExchangeNode.Directory.Basic
import ExchangeNode.Exchange.Bus

/-!
# Requests

The calls a node makes to a directory or an exchange. Each has a method, known by name or by its
place in the list of methods, and one argument.
-/

namespace ExchangeNode

inductive Method where
  | register
  | unregister
  | keepAlive
  | queryNode
  | notify (side : Side)
  | propose (side : Side)
  | select (side : Side)
  | confirm
  | send
  | closeBus
  | createBus
  | busState
  | subscribe (side : Side)
  | subscribeBus
  deriving DecidableEq, Repr

instance : Choice Method where
  all := [.register, .unregister, .keepAlive, .queryNode, .notify .demand, .notify .supply,
    .propose .demand, .propose .supply, .select .supply, .select .demand, .confirm, .send,
    .closeBus, .createBus, .busState, .subscribe .demand, .subscribe .supply, .subscribeBus]
  name
    | .register => "register_node"
    | .unregister => "unregister_node"
    | .keepAlive => "keep_alive"
    | .queryNode => "query_node"
    | .notify side => "notify_" ++ side.name
    | .propose side => "propose_" ++ side.name
    | .select side => "select_" ++ side.name
    | .confirm => "confirm"
    | .send => "send_msg"
    | .closeBus => "close_mbus"
    | .createBus => "create_mbus"
    | .busState => "get_mbus_state"
    | .subscribe side => "subscribe_" ++ side.name
    | .subscribeBus => "subscribe_mbus"

namespace Method

def name (m : Method) : String := Choice.name m

/-- The directory answers the first four methods, the exchange all others. -/
def isDirectory : Method → Bool
  | .register | .unregister | .keepAlive | .queryNode => true
  | _ => false

def isSubscription : Method → Bool
  | .subscribe _ => true
  | .subscribeBus => true
  | _ => false

end Method

inductive Request where
  | register (registration : Registration)
  | unregister (identity : Identity)
  | keepAlive (heartbeat : Heartbeat)
  | queryNode (node : Int32)
  | notify {side : Side} (advert : Advert side)
  | propose {side : Side} (advert : Advert side)
  | select (side : Side) (selection : Selection)
  | confirm (selection : Selection)
  | send (message : BusMessage)
  | closeBus (bus : Bus)
  | createBus (options : BusOptions)
  | busState (bus : Bus)
  | subscribe (side : Side) (channel : Channel)
  | subscribeBus (bus : Bus)
  deriving DecidableEq, Repr

namespace Request

def method : Request → Method
  | .register _ => .register
  | .unregister _ => .unregister
  | .keepAlive _ => .keepAlive
  | .queryNode _ => .queryNode
  | @notify side _ => .notify side
  | @propose side _ => .propose side
  | .select side _ => .select side
  | .confirm _ => .confirm
  | .send _ => .send
  | .closeBus _ => .closeBus
  | .createBus _ => .createBus
  | .busState _ => .busState
  | .subscribe side _ => .subscribe side
  | .subscribeBus _ => .subscribeBus

/-- Whether the connection becomes a stream once the request has been accepted. -/
def isSubscription (r : Request) : Bool := r.method.isSubscription

/-- The argument as a value. -/
def argument : Request → Json
  | .register registration => encode registration
  | .unregister identity => encode identity
  | .keepAlive heartbeat => encode heartbeat
  | .queryNode node => encode node
  | .notify advert => encode advert
  | .propose advert => encode advert
  | .select _ selection => encode selection
  | .confirm selection => encode selection
  | .send message => encode message
  | .closeBus bus => encode bus
  | .createBus options => encode options
  | .busState bus => encode bus
  | .subscribe _ channel => encode channel
  | .subscribeBus bus => encode bus

end Request

namespace Method

/-- The name under which the argument stands in a message. -/
def argumentName : Method → String
  | .register => "info"
  | .unregister => "identity"
  | .keepAlive => "update"
  | .queryNode => "node_id"
  | .notify side => side.name
  | .propose side => side.name
  | .select _ => "target"
  | .confirm => "target"
  | .send => "msg"
  | .closeBus => "mbus"
  | .createBus => "opt"
  | .busState => "mbus"
  | .subscribe _ => "channel"
  | .subscribeBus => "mbus"

/-- The request of this method with the given argument. -/
def request? (setting : Setting) (argument : Json) : Method → Option Request
  | .register => (decode? setting argument).map .register
  | .unregister => (decode? setting argument).map .unregister
  | .keepAlive => (decode? setting argument).map .keepAlive
  | .queryNode => (decode? setting argument).map .queryNode
  | .notify side =>
    (decode? setting argument).map fun advert : Advert side => Request.notify advert
  | .propose side =>
    (decode? setting argument).map fun advert : Advert side => Request.propose advert
  | .select side => (decode? setting argument).map (.select side)
  | .confirm => (decode? setting argument).map .confirm
  | .send => (decode? setting argument).map .send
  | .closeBus => (decode? setting argument).map .closeBus
  | .createBus => (decode? setting argument).map .createBus
  | .busState => (decode? setting argument).map .busState
  | .subscribe side => (decode? setting argument).map (.subscribe side)
  | .subscribeBus => (decode? setting argument).map .subscribeBus

end Method

end ExchangeNode
