import ExchangeNode.Wire.Request
import ExchangeNode.Wire.Response

/-!
# Replies

Every method has its own kind of answer, and one kind of response that carries it. A subscription is
answered by a stream; the response only says that it was accepted. What comes back for a request is
a response or a failure, and a response of any other kind than the method's is a failure too.
-/

namespace ExchangeNode

/-- The elements of a stream up to its end. -/
abbrev RecordStream (α : Type) := List (Except WireError α)

/-- What comes back for a request. -/
abbrev Reply := Except WireError Response

namespace Method

/-- What a method answers. -/
@[reducible] def Answer : Method → Type
  | .register => Identity
  | .keepAlive => HeartbeatReply
  | .queryNode => Registration
  | .select _ => Confirmation
  | .createBus => Bus
  | .busState => BusState
  | .subscribe side => RecordStream (Advert side)
  | .subscribeBus => RecordStream BusMessage
  | .unregister | .notify _ | .propose _ | .confirm | .send | .closeBus => Ack

/-- The response that carries an answer. -/
def respond : (m : Method) → m.Answer → Response
  | .register, identity => .identity identity
  | .unregister, ack => .ack ack
  | .keepAlive, reply => .heartbeat reply
  | .queryNode, registration => .registration registration
  | .notify _, ack => .ack ack
  | .propose _, ack => .ack ack
  | .select _, confirmation => .confirmation confirmation
  | .confirm, ack => .ack ack
  | .send, ack => .ack ack
  | .closeBus, ack => .ack ack
  | .createBus, bus => .bus bus
  | .busState, state => .busState state
  | .subscribe _, _ => .ack .done
  | .subscribeBus, _ => .ack .done

/-- A response of the wrong kind. -/
def unexpected {α : Type} (m : Method) : Except WireError α :=
  .error (.unexpectedResponse m.name)

/-- The answer in a response. A subscription yields no answer here: its records come later. -/
def expect (m : Method) (response : Response) : Except WireError m.Answer :=
  match m, response with
  | .register, .identity identity => .ok identity
  | .unregister, .ack ack => .ok ack
  | .keepAlive, .heartbeat reply => .ok reply
  | .queryNode, .registration registration => .ok registration
  | .notify _, .ack ack => .ok ack
  | .propose _, .ack ack => .ok ack
  | .select _, .confirmation confirmation => .ok confirmation
  | .confirm, .ack ack => .ok ack
  | .send, .ack ack => .ok ack
  | .closeBus, .ack ack => .ok ack
  | .createBus, .bus bus => .ok bus
  | .busState, .busState state => .ok state
  | m, _ => m.unexpected

end Method

end ExchangeNode
