import ExchangeNode.Table
import ExchangeNode.Wire.Link
import ExchangeNode.Wire.Subscription

/-!
# Rehearsing the client side of a connection

A scripted peer accepts a given number of connections. On each of them it has a list of reactions,
one for each request; where it has none left it closes the connection. A link and the subscriptions
beside it are run against the peer, and the requests that reach it are written down.
-/

namespace ExchangeNode

/-- What a peer does about a request. -/
inductive Reaction where
  | send (bytes : List UInt8) (close : Bool)
  | stall
  deriving DecidableEq, Repr

/-- The peer's end of a connection. -/
structure PeerEnd where
  reactions : List Reaction
  /-- What has been sent and not been read yet. -/
  unread : List UInt8
  closed : Bool
  deriving DecidableEq, Repr

structure Peer where
  /-- The reactions on the connections that have not been accepted yet. -/
  expected : List (List Reaction)
  ends : Table PeerEnd
  /-- The number of the next connection. -/
  next : Nat
  /-- The requests that have come on each connection, latest first. -/
  requests : List (Nat × Message)

namespace Peer

/-- A peer before the first connection. -/
def waiting (expected : List (List Reaction)) : Peer := ⟨expected, .empty, 0, []⟩

/-- Accept a connection; when there is none to accept any more nobody listens. -/
def accept (p : Peer) : Except WireError Nat × Peer :=
  match p.expected with
  | [] => (.error (.io .connectionRefused), p)
  | reactions :: expected =>
    (.ok p.next, { p with
      expected
      ends := p.ends.set p.next ⟨reactions, [], false⟩
      next := p.next + 1 })

def react : PeerEnd → PeerEnd
  | ⟨[], unread, _⟩ => ⟨[], unread, true⟩
  | ⟨.stall :: rest, unread, closed⟩ => ⟨rest, unread, closed⟩
  | ⟨.send bytes close :: rest, unread, closed⟩ => ⟨rest, unread ++ bytes, closed || close⟩

/-- A request arrives. -/
def request (p : Peer) (connection : Nat) (m : Message) : Peer :=
  { p with requests := (connection, m) :: p.requests, ends := p.ends.modify connection react }

def unread (p : Peer) (connection : Nat) : List UInt8 :=
  (p.ends.get? connection).elim [] PeerEnd.unread

/-- The client reads the next message of a connection. Where the bytes that a message still lacks
may come later, it waits. -/
def read (p : Peer) (connection : Nat) : Option (Except WireError Message × Peer) :=
  match p.ends.get? connection with
  | none => none
  | some e =>
    let (result, unread) := Message.read e.unread
    let incomplete := match result with
      | .error e => e.isShortage
      | .ok _ => false
    if incomplete && !e.closed then none
    else some (result, { p with ends := p.ends.set connection { e with unread } })

end Peer

/-- A link and the peer it is connected to. -/
structure LinkRehearsal where
  link : Link
  peer : Peer
  /-- The peer's numbers of the link's connections. -/
  routes : Table Nat

namespace LinkRehearsal

/-- The peer's number of a connection of the link. -/
def route (r : LinkRehearsal) (connection : Nat) : Nat := (r.routes.get? connection).getD 0

/-- Carry out an effect; what comes of it at once. -/
def perform (r : LinkRehearsal) : Link.Effect → Option Link.Event × LinkRehearsal
  | .dial connection =>
    match r.peer.accept with
    | (.ok number, peer) =>
      (some (.dialed (.ok ())), { r with peer, routes := r.routes.set connection number })
    | (.error e, peer) => (some (.dialed (.error e)), { r with peer })
  | .write connection m =>
    (some (.wrote (.ok ())), { r with peer := r.peer.request (r.route connection) m })
  | .read connection =>
    match r.peer.read (r.route connection) with
    | some (result, peer) => (some (.received result), { r with peer })
    | none => (none, r)
  | .close _ => (none, r)
  | .reply _ => (none, r)

/-- One event with all its effects: the event that follows, if any. -/
def turn (r : LinkRehearsal) (event : Link.Event) :
    Option Link.Event × Option Reply × LinkRehearsal :=
  let (link, effects) := r.link.step event
  let reply := effects.findSome? fun effect => match effect with
    | .reply reply => some reply
    | _ => none
  let (next, r) := effects.foldl
    (fun (next, r) effect =>
      let (event, r) := perform r effect
      (event.or next, r))
    ((none : Option Link.Event), { r with link })
  (next, reply, r)

/-- Run a call as far as it goes. -/
def run (r : LinkRehearsal) (event : Link.Event) : Nat → Option Reply × LinkRehearsal
  | 0 => (none, r)
  | fuel + 1 =>
    match r.turn event with
    | (_, some reply, r) => (some reply, r)
    | (some event, none, r) => run r event fuel
    | (none, none, r) => (none, r)

/-- The turns of a call: it is made, then its connection is dialed, written to and read from. -/
def turns : Nat := 4

/-- A link to the first connection that a peer accepts. -/
def connect (expected : List (List Reaction)) : Except WireError LinkRehearsal :=
  match (Peer.waiting expected).accept with
  | (.ok number, peer) => .ok ⟨.connected, peer, Table.empty.set 0 number⟩
  | (.error e, _) => .error e

/-- Make a call. -/
def call (r : LinkRehearsal) (request : Request) : Option Reply × LinkRehearsal :=
  r.run (.call request) turns

/-- Make a call that is given up unless it has been answered at once. -/
def abandon (r : LinkRehearsal) (request : Request) : LinkRehearsal :=
  let (_, r) := r.call request
  (r.turn .abandon).2.2

/-- Open a subscription and read it to its end. -/
def subscribe {α : Type} (r : LinkRehearsal) (record? : Item → Option α) (request : Request) :
    Except WireError (RecordStream α) × LinkRehearsal :=
  match r.peer.accept with
  | (.ok number, peer) =>
    let peer := peer.request number (Subscription.opening request)
    (Subscription.receive request.method record? (peer.unread number), { r with peer })
  | (.error e, peer) => (.error e, { r with peer })

/-- The requests since they were last read, in order. -/
def readRequests (r : LinkRehearsal) : List (Nat × Message) × LinkRehearsal :=
  (r.peer.requests.reverse, { r with peer := { r.peer with requests := [] } })

end LinkRehearsal

end ExchangeNode
