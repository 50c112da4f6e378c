import ExchangeNode.Backoff
import ExchangeNode.Effect
import ExchangeNode.IdGenerator
import ExchangeNode.Proposals
import ExchangeNode.Wire.Reply

/-!
# Clients of an exchange

A client advertises on one channel, selects and confirms matches, and uses the message bus that a
match opens. Each operation makes at most one call. What it changes is decided by the answer
alone: before that an operation only takes ids from the generator, and a failure changes nothing,
except that a bus on which a message or its closing got lost on the way counts as closed.
-/

namespace ExchangeNode

structure Client where
  channel : Channel
  /-- The open bus, or zero. -/
  bus : UInt64
  /-- How long a call may take. -/
  patience : Duration
  deriving DecidableEq, Repr

inductive Operation where
  | notify (side : Side) (draft : Draft)
  | propose (side : Side) (draft : Draft)
  | select {side : Side} (advert : Advert side)
  /-- Consent to a match; the proposal that led to it is no longer in flight. -/
  | confirm (id : UInt64) (proposal : Option UInt64)
  | send (message : BusMessage)
  | closeBus
  | createBus (options : BusOptions)
  | busState (bus : Bus)
  | subscribe (side : Side)
  | subscribeBus
  deriving DecidableEq, Repr

/-- A draft takes the id that its record was accepted under, and nothing else. -/
def Draft.after (draft : Draft) : Outcome → Draft
  | .issued id => { draft with id }
  | _ => draft

/-- What is left to do once a call has been answered. -/
inductive Pending where
  | notified (side : Side) (id : UInt64)
  | proposed {side : Side} (advert : Advert side)
  | selected (side : Side)
  | confirmed (id : UInt64) (proposal : Option UInt64)
  | sent (bus : UInt64) (message : UInt64)
  | closed (bus : UInt64)
  | created
  | reported
  | subscribed (side : Side)
  | subscribedBus
  deriving DecidableEq, Repr

namespace Pending

def method : Pending → Method
  | .notified side _ => .notify side
  | @proposed side _ => .propose side
  | .selected side => .select side
  | .confirmed _ _ => .confirm
  | .sent _ _ => .send
  | .closed _ => .closeBus
  | .created => .createBus
  | .reported => .busState
  | .subscribed side => .subscribe side
  | .subscribedBus => .subscribeBus

/-- Whether records are dropped while the node is locked. -/
def isGuarded : Pending → Bool
  | .subscribed _ => true
  | _ => false

end Pending

namespace NodeError

/-- Whether a call got lost, so that nobody knows what became of it. -/
def isTransport : NodeError → Bool
  | .wire (.remote _ _) => false
  | .wire _ => true
  | .timeout _ _ => true
  | _ => false

end NodeError

namespace Client

def standardPatience : Duration := .ofSeconds 10

def opened (id : UInt64) (channelType : UInt32) (argument : String) (patience : Duration) :
    Client :=
  ⟨⟨id, channelType, argument⟩, 0, patience⟩

def id (c : Client) : UInt64 := c.channel.client

/-- Whether an advert is addressed to one of the ids. -/
def isTarget {side : Side} (advert : Advert side) (ids : List UInt64) : Bool :=
  ids.contains advert.target

def advert (c : Client) (side : Side) (id target : UInt64) (draft : Draft) (time : Timestamp) :
    Advert side where
  id := id
  sender := c.id
  target := target
  channelType := c.channel.channelType
  name := draft.name
  time := time
  argument := draft.argument
  bus := 0
  content := draft.content

/-- The bus a client has open, as it refers to it. -/
def openBus (c : Client) : Except NodeError Bus :=
  if c.bus = 0 then .error .busNotOpen else .ok ⟨c.id, c.bus, ""⟩

/-- The call an operation makes, what is left to do after it, and the generator after the ids that
were taken from it. -/
def begin (c : Client) (ids : IdGenerator) (clock : Int) :
    Operation → Except NodeError (Request × Pending × IdGenerator)
  | .notify side draft => do
    let (id, ids) ← ids.generate clock
    let advert := c.advert side id 0 draft (Timestamp.ofClock clock)
    return (.notify advert, .notified side id, ids)
  | .propose side draft => do
    let (id, ids) ← ids.generate clock
    let advert := c.advert side id draft.target draft (Timestamp.ofClock clock)
    return (.propose advert, .proposed advert, ids)
  | @Operation.select side advert => do
    let (id, ids) ← ids.generate clock
    return (.select side ⟨id, c.id, advert.id, advert.channelType, 0⟩, .selected side, ids)
  | .confirm matched proposal => do
    let (id, ids) ← ids.generate clock
    return (.confirm ⟨id, c.id, matched, c.channel.channelType, matched⟩,
      .confirmed matched proposal, ids)
  | .send message => do
    let bus ← c.openBus
    let (id, ids) ← ids.generate clock
    return (.send { message with id, sender := bus.client, bus := bus.id }, .sent bus.id id, ids)
  | .closeBus => do
    let bus ← c.openBus
    return (.closeBus bus, .closed bus.id, ids)
  | .createBus options => return (.createBus options, .created, ids)
  | .busState bus => return (.busState bus, .reported, ids)
  | .subscribe side => return (.subscribe side c.channel, .subscribed side, ids)
  | .subscribeBus => do
    let bus ← c.openBus
    return (.subscribeBus bus, .subscribedBus, ids)

/-- Close a bus on this side, unless another one has been opened meanwhile. -/
def dropBus (c : Client) (bus : UInt64) : Client := if c.bus = bus then { c with bus := 0 } else c

/-- A failed call. Where it was about a bus and got lost, the bus is lost too. -/
def lost (c : Client) (e : NodeError) : Pending → Client
  | .sent bus _ => if e.isTransport then c.dropBus bus else c
  | .closed bus => if e.isTransport then c.dropBus bus else c
  | _ => c

/-- The effect of an answer. -/
def settle (c : Client) (p : Proposals) (response : Response) (pending : Pending) :
    Except WireError (Client × Proposals × Outcome) :=
  match pending with
  | .notified side id => do
    let ack ← (Method.notify side).expect response
    return if ack.ok then (c, p, .issued id) else (c, p, .failed (.rejected ack.err))
  | @Pending.proposed side advert => do
    let ack ← (Method.propose side).expect response
    return if ack.ok then (c, p.track advert, .issued advert.id)
      else (c, p, .failed (.rejected ack.err))
  | .selected .supply => do
    let confirmation ← (Method.select .supply).expect response
    return if confirmation.ok then ({ c with bus := confirmation.bus }, p, .issued confirmation.bus)
      else (c, p, .failed (.rejected confirmation.err))
  | .selected .demand => do
    let confirmation ← (Method.select .demand).expect response
    return if confirmation.ok then (c, p, .done) else (c, p, .failed (.rejected confirmation.err))
  | .confirmed id proposal => do
    let ack ← Method.confirm.expect response
    return if ack.ok then ({ c with bus := id }, proposal.elim p p.retire, .done)
      else (c, p, .failed (.rejected ack.err))
  | .sent _ message => do
    let ack ← Method.send.expect response
    return if ack.ok then (c, p, .issued message) else (c, p, .failed (.rejected ack.err))
  | .closed bus => do
    let ack ← Method.closeBus.expect response
    return if ack.ok then (c.dropBus bus, p, .done) else (c, p, .failed (.rejected ack.err))
  | .created => do
    let bus ← Method.createBus.expect response
    return (c, p, .bus { bus with client := c.id })
  | .reported => do
    let state ← Method.busState.expect response
    return (c, p, .busState state)
  | .subscribed _ => return (c, p, .done)
  | .subscribedBus => return (c, p, .done)

/-- The effect of an answer or of the lack of one. -/
def conclude (c : Client) (p : Proposals) (pending : Pending) (reply : Option Reply) :
    Client × Proposals × Outcome :=
  let failed (e : NodeError) : Client × Proposals × Outcome := (c.lost e pending, p, .failed e)
  match reply with
  | none => failed (.timeout pending.method c.patience.seconds)
  | some (.error e) => failed (.wire e)
  | some (.ok response) =>
    match c.settle p response pending with
    | .ok result => result
    | .error e => failed (.wire e)

end Client

end ExchangeNode
