import ExchangeNode.Wire.Frame
import ExchangeNode.Wire.Reply

/-!
# Receiving a subscription

A subscription has a connection of its own. The first message says whether it was accepted; those
after it are records, until one ends the stream or says that it failed. A connection that is closed
between messages ends the stream too.
-/

namespace ExchangeNode

namespace Item

def advert? : (side : Side) → Item → Option (Advert side)
  | .demand, @Item.advert .demand a => some a
  | .supply, @Item.advert .supply a => some a
  | _, _ => none

def message? : Item → Option BusMessage
  | .message m => some m
  | _ => none

end Item

/-- An item, if it is one that the stream of a method yields. -/
def Method.item? (m : Method) (item : Item) : Option Item :=
  match m with
  | .subscribe side => (Item.advert? side item).map .advert
  | .subscribeBus => item.message?.map .message
  | _ => none

namespace Subscription

/-- The request that opens a subscription; a subscription has a connection for itself, so its
messages need no number. -/
def opening (request : Request) : Message := ⟨0, .request request⟩

/-- Whether the first message accepts the subscription. -/
def accept (method : Method) : Except WireError Message → Except WireError Unit
  | .ok ⟨_, .response (.ack ack)⟩ => if ack.ok then .ok () else .error (.remote 403 ack.err)
  | .ok ⟨_, .response (.error code message)⟩ => .error (.remote code message)
  | .ok _ => method.unexpected
  | .error e => .error e

/-- What a later message is to the stream. -/
inductive Element (α : Type) where
  | record (a : α)
  | failure (e : WireError)
  | finish

def element {α : Type} (method : Method) (record? : Item → Option α) :
    Except WireError Message → Element α
  | .ok ⟨_, .item .finish⟩ => .finish
  | .ok ⟨_, .item item⟩ =>
    match record? item with
    | some a => .record a
    | none => .failure (.unexpectedResponse method.name)
  | .ok ⟨_, .response (.error code message)⟩ => .failure (.remote code message)
  | .ok _ => .failure (.unexpectedResponse method.name)
  | .error .connectionClosed => .finish
  | .error e => .failure e

/-- The stream in the bytes that arrive before the connection ends. -/
def records {α : Type} (method : Method) (record? : Item → Option α) (bytes : List UInt8) :
    RecordStream α :=
  match equal : Message.read bytes with
  | (.ok m, rest) =>
    match element method record? (.ok m) with
    | .record a =>
      have := Message.length_read_lt equal
      .ok a :: records method record? rest
    | .failure e => [.error e]
    | .finish => []
  | (.error e, _) =>
    match element method record? (.error e) with
    | .record a => [.ok a]
    | .failure e => [.error e]
    | .finish => []
termination_by bytes.length

/-- What becomes of a subscription when the bytes arrive before the connection ends. -/
def receive {α : Type} (method : Method) (record? : Item → Option α) (bytes : List UInt8) :
    Except WireError (RecordStream α) :=
  let (first, rest) := Message.read bytes
  (accept method first).map fun _ => records method record? rest

end Subscription

end ExchangeNode
