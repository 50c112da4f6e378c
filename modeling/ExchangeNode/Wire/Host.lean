import ExchangeNode.Wire.Frame
import ExchangeNode.Wire.Reply

/-!
# Hosting services

A host answers the requests on a connection one after the other, on behalf of the services it hosts.
Messages that are no requests are passed over. Once it has accepted a subscription the connection
carries the records of the stream, then one last message that ends them, and nothing more. At the
end of the bytes, or at a frame that cannot be read, the host stops.
-/

namespace ExchangeNode

/-- Something that answers requests and may change in doing so. -/
structure Service (σ : Type) where
  answer : σ → (r : Request) → Except WireError r.method.Answer × σ

/-- Which of the two services a host hosts. -/
structure Hosted where
  directory : Bool
  exchange : Bool
  deriving DecidableEq, Repr

/-- What a host does on one connection. -/
structure Hosting (σ : Type) where
  /-- The messages it sends. -/
  sent : List Message
  /-- The requests it hands to the services. -/
  served : List Request
  state : σ

namespace Hosted

def hosts (h : Hosted) (m : Method) : Bool := if m.isDirectory then h.directory else h.exchange

def missing (m : Method) : WireError :=
  .remote 501 ((if m.isDirectory then "directory" else "exchange") ++ " service not hosted here")

/-- The answer to a request, and what was handed to the services for it. -/
def answer {σ : Type} (h : Hosted) (service : Service σ) (s : σ) (r : Request) :
    Except WireError r.method.Answer × List Request × σ :=
  if h.hosts r.method then
    let (result, s) := service.answer s r
    (result, [r], s)
  else (.error (missing r.method), [], s)

end Hosted

/-- The elements of a stream up to its first failure, and what ends them. -/
def streamBodies {α : Type} (item : α → Item) : RecordStream α → List Body
  | [] => [.item .finish]
  | .ok a :: rest => .item (item a) :: streamBodies item rest
  | .error e :: _ => [.response (.ofError e)]

/-- What is sent for the answer to a request. -/
def Method.bodies : (m : Method) → Except WireError m.Answer → List Body
  | _, .error e => [.response (.ofError e)]
  | .subscribe _, .ok stream => .response (.ack .done) :: streamBodies Item.advert stream
  | .subscribeBus, .ok stream => .response (.ack .done) :: streamBodies Item.message stream
  | m, .ok answer => [.response (m.respond answer)]

namespace Hosted

/-- Serve a connection on which the bytes arrive before its end. -/
def connection {σ : Type} (h : Hosted) (service : Service σ) (s : σ) (bytes : List UInt8) :
    Hosting σ :=
  match equal : Message.read bytes with
  | (.ok ⟨id, .request r⟩, rest) =>
    let (result, served, s) := h.answer service s r
    let sent := (r.method.bodies result).map fun body => ⟨id, body⟩
    if r.isSubscription && result.toBool then ⟨sent, served, s⟩
    else
      have := Message.length_read_lt equal
      let later := h.connection service s rest
      ⟨sent ++ later.sent, served ++ later.served, later.state⟩
  | (.ok ⟨_, .response _⟩, rest) =>
    have := Message.length_read_lt equal
    h.connection service s rest
  | (.ok ⟨_, .item _⟩, rest) =>
    have := Message.length_read_lt equal
    h.connection service s rest
  | (.error _, _) => ⟨[], [], s⟩
termination_by bytes.length

end Hosted

end ExchangeNode
