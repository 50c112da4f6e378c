import ExchangeNode.Table
import ExchangeNode.Wire.Link
import Std.Async
import Std.Time

/-!
# Connections over a network

Sockets for what links and subscriptions do. Nothing here decides anything: messages are read and
written as `Message` says, and a line makes the calls of its link one after the other.
-/

namespace ExchangeNode

open Std.Async

/-- An open connection, with what has come on it and has not been read. -/
structure Connection where
  socket : TCP.Socket.Client
  unread : IO.Ref (List UInt8)

namespace Connection

def failure (e : IO.Error) : WireError :=
  let text := e.toString
  let tells (words : String) : Bool := (text.splitOn words).length > 1
  .io (if tells "connection refused" then .connectionRefused
    else if tells "network is unreachable" then .networkUnreachable
    else .other text)

/-- The host and the number of the service in an address. -/
def parts (address : String) : String × String :=
  let pieces := address.splitOn ":"
  (String.intercalate ":" pieces.dropLast, pieces.getLastD "")

def dialAny (service : UInt16) : List Std.Net.IPAddr → Async (Except WireError Connection)
  | [] => return .error (.io (.other "no such address"))
  | ip :: rest => do
    let address : Std.Net.SocketAddress := match ip with
      | .v4 a => .v4 ⟨a, service⟩
      | .v6 a => .v6 ⟨a, service⟩
    try
      let socket ← TCP.Socket.Client.mk
      socket.connect address
      socket.noDelay
      return .ok ⟨socket, ← IO.mkRef []⟩
    catch e =>
      if rest.isEmpty then return .error (failure e) else dialAny service rest

def dial (address : String) : Async (Except WireError Connection) := do
  let (host, service) := parts address
  match service.toNat? with
  | none => return .error (.io (.other "invalid socket address"))
  | some number =>
    try dialAny (UInt16.ofNat number) (← DNS.getAddrInfo host service).toList
    catch e => return .error (failure e)

def write (c : Connection) (m : Message) : Async (Except WireError Unit) := do
  try
    c.socket.send m.write.toByteArray
    return .ok ()
  catch e => return .error (failure e)

/-- More bytes: `none` when the time is up, and nothing in them at the end of the connection. -/
def more (c : Connection) (millis : Option Nat) : Async (Option (Option ByteArray)) := do
  match millis with
  | none => return some (← c.socket.recv? 65536)
  | some n =>
    let timer ← Selector.sleep (.ofNat n)
    Selectable.one #[
      .case (c.socket.recvSelector 65536) fun bytes => return some bytes,
      .case timer fun _ => return none]

/-- The next message, unless the time is up before it has come. -/
partial def read (c : Connection) (deadline : Option Nat) :
    Async (Option (Except WireError Message)) := do
  let (result, rest) := Message.read (← c.unread.get)
  let incomplete := match result with
    | .error e => e.isShortage
    | .ok _ => false
  if !incomplete then
    c.unread.set rest
    return some result
  else
    let now ← IO.monoMsNow
    let bytes ← try c.more (deadline.map (· - now)) catch _ => pure (some none)
    match bytes with
    | none => return none
    | some none => return some result
    | some (some bytes) =>
      c.unread.modify (· ++ bytes.toList)
      c.read deadline

end Connection

/-- A link over a network. -/
structure NetworkLink where
  address : String
  link : IO.Ref Link
  connections : IO.Ref (Table Connection)
  /-- The call that was made last. -/
  last : IO.Ref (AsyncTask Unit)

namespace NetworkLink

/-- A link whose first connection has been opened. -/
def ofConnection (address : String) (c : Connection) : BaseIO NetworkLink :=
  return ⟨address, ← IO.mkRef .connected, ← IO.mkRef (Table.empty.set 0 c), ← IO.mkRef (.pure ())⟩

/-- Carry out an effect; the event that follows, if any. -/
def perform (l : NetworkLink) (deadline : Nat) : Link.Effect → Async (Option Link.Event)
  | .dial number => do
    match ← Connection.dial l.address with
    | .ok c =>
      l.connections.modify (·.set number c)
      return some (.dialed (.ok ()))
    | .error e => return some (.dialed (.error e))
  | .write number m => do
    match (← l.connections.get).get? number with
    | some c => return some (.wrote (← c.write m))
    | none => return some (.wrote (.error .connectionClosed))
  | .read number => do
    match (← l.connections.get).get? number with
    | some c => return some (((← c.read (some deadline)).map Link.Event.received).getD .abandon)
    | none => return some (.received (.error .connectionClosed))
  | .close number => do
    l.connections.modify (·.erase number)
    return none
  | .reply _ => return none

partial def run (l : NetworkLink) (deadline : Nat) (event : Link.Event) : Async (Option Reply) := do
  let effects ← l.link.modifyGet fun link =>
    let (link, effects) := link.step event
    (effects, link)
  let mut next : Option Link.Event := none
  let mut reply : Option Reply := none
  for effect in effects do
    match effect with
    | .reply r => reply := some r
    | effect =>
      match ← l.perform deadline effect with
      | some event => next := some event
      | none => pure ()
  match reply, next with
  | some answer, _ => return some answer
  | none, some following => l.run deadline following
  | none, none => return none

/-- Make a call once those before it have ended, unless it is too late then. -/
def call (l : NetworkLink) (deadline : Nat) (request : Request) (answered : Reply → Async Unit) :
    IO Unit := do
  let before ← l.last.get
  let work : Async Unit := do
    try await before catch _ => pure ()
    if (← IO.monoMsNow) < deadline then
      match ← l.run deadline (.call request) with
      | some reply => answered reply
      | none => pure ()
  l.last.set (← work.toIO)

end NetworkLink

end ExchangeNode
