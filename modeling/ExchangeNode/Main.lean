import ExchangeNode.CommandLine.Execution
import ExchangeNode.CommandLine.Network
import ExchangeNode.CommandLine.Usage
import ExchangeNode.Configuration.File
import ExchangeNode.Node.Schedule
import ExchangeNode.Wire.Subscription

/-!
# The program

Runs a command over a network. What the world does is put into an inbox as events; the command takes
them one by one, and its effects are carried out beside it.
-/

namespace ExchangeNode.Program

open Std.Async

structure Outside where
  /-- When the program began. -/
  beginning : Nat
  colours : Bool
  inbox : IO.Ref (List Execution.Event)
  directory : IO.Ref (Option NetworkLink)
  exchange : IO.Ref (Option NetworkLink)
  /-- The streams of subscriptions, by their jobs. -/
  streams : IO.Ref (Table (Method × Connection))
  /-- The wait for an interrupt, once there is one. -/
  signal : IO.Ref (Option (AsyncTask Unit))

namespace Outside

def post (o : Outside) (event : Execution.Event) : BaseIO Unit := o.inbox.modify (· ++ [event])

def tell (o : Outside) (event : Node.Event) : BaseIO Unit := o.post (.node event)

def begin (work : Async Unit) : IO Unit := do
  let _ ← work.toIO

/-- Dial an address. The link to the directory is the one that a registration needs. -/
def dial (o : Outside) (job : Nat) (address : String) : IO Unit := begin do
  match ← Connection.dial address with
  | .ok c =>
    let link ← NetworkLink.ofConnection address c
    (if job = Execution.registerJob then o.directory else o.exchange).set (some link)
    o.tell (.dialed job (.ok ()))
  | .error e => o.tell (.dialed job (.error e))

/-- Open a connection for a subscription. -/
def subscribe (o : Outside) (address : String) (call job : Nat) (request : Request) : IO Unit :=
  begin do
    match ← Connection.dial address with
    | .error e => o.tell (.answer call (.error e))
    | .ok c =>
      match ← c.write (Subscription.opening request) with
      | .error e => o.tell (.answer call (.error e))
      | .ok () =>
        let first := (← c.read none).getD (.error .connectionClosed)
        match Subscription.accept request.method first with
        | .error e => o.tell (.answer call (.error e))
        | .ok () =>
          o.streams.modify (·.set job (request.method, c))
          o.tell (.answer call (.ok (.ack .done)))

/-- Take the next item of a subscription. -/
def pull (o : Outside) (job : Nat) : IO Unit := begin do
  match (← o.streams.get).get? job with
  | none => o.tell (.item job none)
  | some (method, c) =>
    let next := (← c.read none).getD (.error .connectionClosed)
    match Subscription.element method method.item? next with
    | .record item => o.tell (.item job (some (.ok item)))
    | .failure e => o.tell (.item job (some (.error e)))
    | .finish => o.tell (.item job none)

/-- When a call of the node runs out of time. -/
def deadline (o : Outside) (n : Node) (call : Nat) : Nat :=
  let wait := match n.errandWaiting? call with
    | some (_, errand) => errand.wait?
    | none => match n.session.loopWaiting? call with
      | some (_, l) => l.stage.wait?
      | none => (n.session.jobWaiting? call).bind fun entry => entry.2.wait?
  o.beginning + wait.elim n.session.world.now (·.deadline)

def call (o : Outside) (n : Node) (call : Nat) (request : Request) : IO Unit := do
  let link ← (if request.method.isDirectory then o.directory else o.exchange).get
  match link with
  | none => o.tell (.answer call (.error .connectionClosed))
  | some link =>
    if request.isSubscription then
      match n.errandWaiting? call with
      | some (job, _) => o.subscribe link.address call job request
      | none => pure ()
    else link.call (o.deadline n call) request fun reply => o.tell (.answer call reply)

def perform (o : Outside) (n : Node) : Effect → IO Unit
  | .dial job address => o.dial job address
  | .call call request => o.call n call request
  | .pull job => o.pull job
  | .deliver _ _ => pure ()
  | .finish _ _ => pure ()

def print (o : Outside) (line : Line) : IO Unit := IO.println (line.render o.colours)

/-- Once the command listens, let it know of an interrupt. -/
def watchSignal (o : Outside) (x : Execution) : IO Unit := do
  if x.listens && (← o.signal.get).isNone then
    let waiter ← Signal.Waiter.mk .sigint false
    let work : Async Unit := do
      let _ ← await (← waiter.wait)
      o.post .interrupt
    o.signal.set (some (← work.toIO))

/-- The wall clock in Unix milliseconds. -/
def clock : IO Int := do
  return (← Std.Time.Timestamp.now).toMillisecondsSinceUnixEpoch.val

/-- Let the node know what time it is. -/
def passTime (o : Outside) (x : Execution) : IO Execution := do
  let now := (← IO.monoMsNow) - o.beginning
  let next := x.node.nextDeadline?.elim now (min now)
  let random := Float.ofNat (← IO.rand 0 999999) / 1000000.0
  let events : List Node.Event := [.elapse (next - x.node.session.world.now),
    .session (.setClock (← clock)), .session (.setRandom random)]
  return (x.run (events.map .node)).1

/-- The next event, if anything can happen now. -/
def next? (o : Outside) (x : Execution) : IO (Option Execution.Event) := do
  match ← o.inbox.modifyGet fun events => (events.head?, events.tail) with
  | some event => return some event
  | none =>
    let own := if x.canReceive then some Execution.Event.receive else none
    return (x.node.ready?.map .node).or (own.or (x.node.due?.map .node))

partial def run (o : Outside) (x : Execution) (printed : Nat) : IO Execution := do
  (x.printed.take (x.printed.length - printed)).reverse.forM o.print
  if x.hasEnded then return x
  o.watchSignal x
  let y ← o.passTime x
  match ← o.next? y with
  | some event =>
    let (z, effects) := y.step event
    effects.forM (o.perform z.node)
    o.run z x.printed.length
  | none =>
    IO.sleep 5
    o.run y x.printed.length

end Outside

def readFile (path : String) : IO (Option (List UInt8)) := do
  try
    let bytes ← IO.FS.readBinFile path
    return some bytes.toList
  catch _ => return none

def execute (i : Invocation) : IO UInt32 := do
  let home := Configuration.homeDirectory (← IO.getEnv "HOME") "/tmp"
  let contents ← readFile (i.configuration.getD (Configuration.standardPath home))
  let colours := (← (← IO.getStdout).isTty) && (← IO.getEnv "NO_COLOR").isNone
  let o : Outside := {
    beginning := ← IO.monoMsNow, colours := colours, inbox := ← IO.mkRef []
    directory := ← IO.mkRef none, exchange := ← IO.mkRef none, streams := ← IO.mkRef .empty
    signal := ← IO.mkRef none }
  let world : Surroundings := ⟨0, ← Outside.clock, 0.5, 0.0, 0.0⟩
  let (x, effects) := Execution.start (.ofFile contents) i.command world
  effects.forM (o.perform x.node)
  match (← o.run x 0).failure? with
  | none => return 0
  | some e =>
    IO.eprintln ((Line.error e.message).render colours)
    return 1

end ExchangeNode.Program

/-- Runs the command that the arguments ask for. -/
def main (arguments : List String) : IO UInt32 := do
  match ExchangeNode.Invocation.parse arguments with
  | .ok i => ExchangeNode.Program.execute i
  | .error m =>
    let answer := m.answer ExchangeNode.Registration.software
    if m.isRequest then
      IO.println answer
      return 0
    else
      IO.eprintln answer
      return 2
