import ExchangeNode.Wire.Frame
import ExchangeNode.Wire.Reply

/-!
# Links

A link carries the calls of one client to one service, one at a time, over a connection that it
keeps between calls. For the time of a call the connection is taken out, and it is kept for the next
call only once the whole answer has been read. A call that fails or is given up leaves no connection
behind, so the next one dials again.
-/

namespace ExchangeNode

/-- Where the call under way stands. -/
inductive CallStage where
  | idle
  | dialing (request : Request)
  | writing (connection : Nat) (id : UInt64) (method : Method)
  | reading (connection : Nat) (id : UInt64) (method : Method)
  deriving DecidableEq, Repr

structure Link where
  /-- The connection kept for the next call. -/
  kept : Option Nat
  nextId : UInt64
  /-- The number of the next connection. -/
  nextConnection : Nat
  stage : CallStage
  deriving DecidableEq, Repr

namespace Link

inductive Event where
  | call (request : Request)
  | dialed (result : Except WireError Unit)
  | wrote (result : Except WireError Unit)
  | received (result : Except WireError Message)
  /-- Nobody waits for the call any more. -/
  | abandon
  deriving Repr

inductive Effect where
  | dial (connection : Nat)
  | write (connection : Nat) (message : Message)
  /-- Wait for the next message. -/
  | read (connection : Nat)
  | close (connection : Nat)
  | reply (reply : Reply)
  deriving Repr

/-- A link whose first connection has been opened. -/
def connected : Link := ⟨some 0, 1, 1, .idle⟩

/-- Send a request over a connection. -/
def send (l : Link) (connection : Nat) (request : Request) : Link × List Effect :=
  ({ l with stage := .writing connection l.nextId request.method, nextId := l.nextId + 1 },
    [.write connection ⟨l.nextId, .request request⟩])

/-- The call has failed, and its connection is closed. -/
def fail (l : Link) (connection : Nat) (e : WireError) : Link × List Effect :=
  ({ l with stage := .idle }, [.close connection, .reply (.error e)])

/-- What an answer is for the caller. -/
def replyOf (method : Method) : Body → Reply
  | .response (.error code message) => .error (.remote code message)
  | .response response => .ok response
  | _ => .error (.unexpectedResponse method.name)

def step (l : Link) (event : Event) : Link × List Effect :=
  match l.stage, event with
  | .idle, .call request =>
    match l.kept with
    | some connection => { l with kept := none }.send connection request
    | none => ({ l with stage := .dialing request }, [.dial l.nextConnection])
  | .dialing request, .dialed (.ok ()) =>
    { l with nextConnection := l.nextConnection + 1 }.send l.nextConnection request
  | .dialing _, .dialed (.error e) => ({ l with stage := .idle }, [.reply (.error e)])
  | .dialing _, .abandon =>
    ({ l with stage := .idle, nextConnection := l.nextConnection + 1 }, [.close l.nextConnection])
  | .writing connection id method, .wrote (.ok ()) =>
    ({ l with stage := .reading connection id method }, [.read connection])
  | .writing connection _ _, .wrote (.error e) => l.fail connection e
  | .reading connection id method, .received (.ok m) =>
    if m.id = id then
      ({ l with stage := .idle, kept := some connection }, [.reply (replyOf method m.body)])
    else l.fail connection (.unexpectedResponse method.name)
  | .reading connection _ _, .received (.error e) => l.fail connection e
  | .writing connection _ _, .abandon => ({ l with stage := .idle }, [.close connection])
  | .reading connection _ _, .abandon => ({ l with stage := .idle }, [.close connection])
  | _, _ => (l, [])

end Link

end ExchangeNode
