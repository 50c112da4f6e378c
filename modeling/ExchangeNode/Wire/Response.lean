import ExchangeNode.Wire.Error
import ExchangeNode.Exchange.Bus

/-!
# Responses and stream items

The answer to a request, and the elements of the stream that an accepted subscription opens.
-/

namespace ExchangeNode

inductive ResponseKind where
  | identity
  | registration
  | heartbeat
  | ack
  | confirmation
  | bus
  | busState
  | error
  deriving DecidableEq, Repr

instance : Choice ResponseKind where
  all := [.identity, .registration, .heartbeat, .ack, .confirmation, .bus, .busState, .error]
  name
    | .identity => "node_id"
    | .registration => "node_info"
    | .heartbeat => "keep_alive_result"
    | .ack => "ack"
    | .confirmation => "confirm_result"
    | .bus => "mbus"
    | .busState => "mbus_state"
    | .error => "error"

inductive Response where
  | identity (identity : Identity)
  | registration (registration : Registration)
  | heartbeat (reply : HeartbeatReply)
  /-- Also the answer to a subscription that is accepted. -/
  | ack (ack : Ack)
  | confirmation (confirmation : Confirmation)
  | bus (bus : Bus)
  | busState (state : BusState)
  | error (code : Int32) (message : String)
  deriving DecidableEq, Repr

namespace Response

def kind : Response → ResponseKind
  | .identity _ => .identity
  | .registration _ => .registration
  | .heartbeat _ => .heartbeat
  | .ack _ => .ack
  | .confirmation _ => .confirmation
  | .bus _ => .bus
  | .busState _ => .busState
  | .error .. => .error

/-- The report of a failure. -/
def ofError (e : WireError) : Response := .error e.code e.report

def members : Response → List (String × Json)
  | .identity i => [("identity", encode i)]
  | .registration r => [("info", encode r)]
  | .heartbeat r => [("response", encode r)]
  | .ack a => [("ack", encode a)]
  | .confirmation c => [("response", encode c)]
  | .bus b => [("mbus", encode b)]
  | .busState s => [("state", encode s)]
  | .error code message => [("code", encode code), ("message", encode message)]

end Response

namespace ResponseKind

def fields : ResponseKind → List String
  | .identity => ["identity"]
  | .registration => ["info"]
  | .heartbeat => ["response"]
  | .ack => ["ack"]
  | .confirmation => ["response"]
  | .bus => ["mbus"]
  | .busState => ["state"]
  | .error => ["code", "message"]

def read? (setting : Setting) (fields : Fields) : ResponseKind → Option Response
  | .identity => (fields.required setting "identity").map .identity
  | .registration => (fields.required setting "info").map .registration
  | .heartbeat => (fields.required setting "response").map .heartbeat
  | .ack => (fields.required setting "ack").map .ack
  | .confirmation => (fields.required setting "response").map .confirmation
  | .bus => (fields.required setting "mbus").map .bus
  | .busState => (fields.required setting "state").map .busState
  | .error => do
    some (.error (← fields.required setting "code") (← fields.required setting "message"))

end ResponseKind

inductive ItemKind where
  | advert (side : Side)
  | message
  | finish
  deriving DecidableEq, Repr

instance : Choice ItemKind where
  all := [.advert .demand, .advert .supply, .message, .finish]
  name
    | .advert side => side.name
    | .message => "mbus_msg"
    | .finish => "end"

inductive Item where
  | advert {side : Side} (advert : Advert side)
  | message (message : BusMessage)
  /-- Nothing follows. -/
  | finish
  deriving DecidableEq, Repr

namespace Item

def kind : Item → ItemKind
  | @advert side _ => .advert side
  | .message _ => .message
  | .finish => .finish

def members : Item → List (String × Json)
  | @advert side a => [(side.name, encode a)]
  | .message m => [("msg", encode m)]
  | .finish => []

end Item

namespace ItemKind

def fields : ItemKind → List String
  | .advert side => [side.name]
  | .message => ["msg"]
  | .finish => []

def read? (setting : Setting) (fields : Fields) : ItemKind → Option Item
  | .advert side =>
    (fields.required setting side.name).map fun advert : Advert side => Item.advert advert
  | .message => (fields.required setting "msg").map .message
  | .finish => some .finish

end ItemKind

end ExchangeNode
