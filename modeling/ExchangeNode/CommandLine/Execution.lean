import ExchangeNode.CommandLine.Invocation
import ExchangeNode.CommandLine.Line
import ExchangeNode.Node.Step
import ExchangeNode.Session.Registration

/-!
# Executing a command

A command has a node of its own. It registers the node; to advertise or to watch it opens a client
and lets it do one thing. Once the node has been registered, every way out leads through `leave`,
which gives the registration up again and does not change what the command returns. Only a node that
was told to move to another exchange has left already.

The command goes on as soon as what it waits for has ended. So all that can come in between is what
the world does: answers, records, timers, directory commands and the interrupt of the user.
-/

namespace ExchangeNode

/-- What a command waits for. -/
inductive Progress where
  | registering
  /-- The exchange is dialed. -/
  | opening
  /-- The client advertises or receives. -/
  | operating
  /-- The registration is given up, then a line is printed and the failure, if any, returned. -/
  | leaving (farewell : Option Line) (failure : Option NodeError)
  /-- Directory commands are awaited; those before `position` have been read. -/
  | following (position : Nat)
  | ended (failure : Option NodeError)
  deriving DecidableEq, Repr

structure Execution where
  configuration : Configuration
  command : Command
  /-- The channel that an advertising or watching command works on. -/
  channel : UInt32
  node : Node
  progress : Progress
  interrupted : Bool
  /-- What has been printed, latest first. -/
  printed : List Line
  deriving DecidableEq, Repr

namespace Node.Event

/-- Whether the event is caused by the world around a node and not by its user. -/
def isWorldly : Node.Event → Bool
  | .session (.answer _ _) => true
  | .session (.timeout _) => true
  | .session (.wake _) => true
  | .session (.heed _) => true
  | .session (.proceed _) => true
  | .session .release => true
  | .session (.setClock _) => true
  | .session (.setRandom _) => true
  | .session (.setLoad _ _) => true
  | .dialed _ _ => true
  | .answer _ _ => true
  | .timeout _ => true
  | .item _ _ => true
  | .heed _ => true
  | .elapse _ => true
  | _ => false

end Node.Event

namespace Execution

inductive Event where
  | node (event : Node.Event)
  /-- The user wants the command to end. One that does not listen is not told: it is gone. -/
  | interrupt
  /-- The next directory command is read. -/
  | receive

/-- A turn: the execution after it, and its effects in order. -/
abbrev Turn := Execution × List Effect

def registerJob : Nat := 0

def openJob : Nat := 1

def operateJob : Nat := 2

def leaveJob : Nat := 3

/-- The number of the only client. -/
def client : Nat := 0

def print (x : Execution) (line : Line) : Execution := { x with printed := line :: x.printed }

def hasEnded (x : Execution) : Bool :=
  match x.progress with
  | .ended _ => true
  | _ => false

/-- The failure that the command has ended with. -/
def failure? (x : Execution) : Option NodeError :=
  match x.progress with
  | .ended failure => failure
  | _ => none

def conclude (x : Execution) (farewell : Option Line) (failure : Option NodeError) : Turn :=
  ({ farewell.elim x x.print with progress := .ended failure }, [])

/-- Let the node begin something. Where it is over at once, so that it is all the node does, the
command goes on with the outcome. -/
def launch (x : Execution) (progress : Progress) (event : Node.Event)
    (next : Execution → Outcome → Turn) : Turn :=
  match x.node.step event with
  | (node, [.finish _ outcome]) => next { x with node, progress } outcome
  | (node, effects) => ({ x with node, progress }, effects)

/-- Give the registration up. What comes of it makes no difference. -/
def leave (x : Execution) (farewell : Option Line) (failure : Option NodeError) : Turn :=
  x.launch (.leaving farewell failure) (.session (.unregister leaveJob)) fun x _ =>
    x.conclude farewell failure

def advertised (side : Side) (id : UInt64) (channel : UInt32) : Line :=
  .success ((match side with
    | .demand => "Demand "
    | .supply => "Supply ") ++ toString id.toNat ++ " sent on channel " ++ toString channel.toNat)

/-- The client has done what it was opened for. -/
def operated (x : Execution) (outcome : Outcome) : Turn :=
  match outcome, x.command with
  | .failed e, _ => x.leave none (some e)
  | .issued id, .advertise side _ _ _ => x.leave (some (advertised side id x.channel)) none
  | _, _ => x.leave none none

def operate (x : Execution) : Turn :=
  match x.command with
  | .register => (x, [])
  | .advertise side name argument _ =>
    x.launch .operating (.operate operateJob client (.notify side ⟨0, 0, name, argument, none⟩))
      operated
  | .watch side _ _ =>
    let title := "watching " ++ side.name ++ " on channel " ++ toString x.channel.toNat
    (x.print (.section title)).launch .operating (.operate operateJob client (.subscribe side))
      operated

/-- The client has been opened, or the exchange could not be reached. A subscription that was
interrupted before it began is called off when it begins. -/
def opened (x : Execution) (outcome : Outcome) : Turn :=
  match outcome with
  | .failed e => x.leave none (some e)
  | _ =>
    let (x, effects) := x.operate
    if x.interrupted then ({ x with node := (x.node.step (.cancel operateJob)).1 }, effects)
    else (x, effects)

/-- Open a client at the exchange that is configured, or else at the one that was assigned. -/
def openClient (x : Execution) (assigned : String) : Turn :=
  let options := x.configuration.exchange
  let address := if options.address.isEmpty then assigned else options.address
  x.launch .opening (.dial openJob client address x.channel Command.noArgument
    (.ofSeconds options.callTimeoutSeconds.toNat)) opened

/-- What is shown of a registration. -/
def greeting (identity : Option Identity) : List Line :=
  let entries := identity.elim [] fun i =>
    [.entry "Node" (toString i.node.toInt), .entry "Server" i.exchangeAddress,
      .entry "Keepalive" (toString i.heartbeatSeconds.toInt ++ "s")]
  .section "Node registered" :: entries ++ [.hint "Press Ctrl-C to unregister and exit"]

/-- The node has been registered, or not. -/
def registered (x : Execution) (outcome : Outcome) : Turn :=
  match outcome, x.command with
  | .failed e, _ => x.conclude none (some e)
  | .exchange _, .register =>
    let session := x.node.session
    ({ (greeting session.identity).foldl print x with
        progress := .following session.commands.subscribe }, [])
  | .exchange assigned, _ => x.openClient assigned
  | _, _ => (x, [])

/-- What the command waits for has ended. -/
def goOn (x : Execution) (outcome : Outcome) : Turn :=
  match x.progress with
  | .registering => x.registered outcome
  | .opening => x.opened outcome
  | .operating => x.operated outcome
  | .leaving farewell failure => x.conclude farewell failure
  | .following _ => (x, [])
  | .ended _ => (x, [])

/-- An advert has been received. -/
def display (x : Execution) (item : Item) : Execution :=
  let raw := match x.command with
    | .watch _ _ raw => raw
    | _ => false
  let x := { x with node := (x.node.step (.session .countMessage)).1 }
  match item with
  | .advert advert => x.print (.ofAdvert raw advert)
  | _ => x

/-- Heed what the node does. What concerns the world is passed on. -/
def heed (x : Execution) : List Effect → Turn
  | [] => (x, [])
  | .finish _ outcome :: rest =>
    let (x, first) := x.goOn outcome
    let (x, more) := x.heed rest
    (x, first ++ more)
  | .deliver _ item :: rest => (x.display item).heed rest
  | effect :: rest =>
    let (x, more) := x.heed rest
    (x, effect :: more)

/-- Whether an interrupt is something to the command, and not simply its end. -/
def listens (x : Execution) : Bool :=
  match x.command, x.progress with
  | .register, .following _ => true
  | .watch _ _ _, .registering => false
  | .watch _ _ _, _ => true
  | _, _ => false

/-- When it is interrupted, a command that follows the directory leaves it, and one that watches
calls its subscription off. -/
def interrupt (x : Execution) : Turn :=
  match x.command, x.progress with
  | .register, .following _ => x.leave (some (.success "Node unregistered")) none
  | .watch _ _ _, .registering => (x, [])
  | .watch _ _ _, _ =>
    ({ x with interrupted := true, node := (x.node.step (.cancel operateJob)).1 }, [])
  | _, _ => (x, [])

/-- Whether a directory command has come that has not been read. -/
def canReceive (x : Execution) : Bool :=
  match x.progress with
  | .following position => (x.node.session.commands.receive position).isSome
  | _ => false

/-- Read a directory command. One that has come too late to be kept is passed over. -/
def receive (x : Execution) : Turn :=
  match x.progress with
  | .following position =>
    match x.node.session.commands.receive position with
    | none => (x, [])
    | some (.missed _, position) => ({ x with progress := .following position }, [])
    | some (.value reply, position) =>
      match reply.command with
      | .serverChange =>
        x.conclude (some (.warning "Exchange server changed; register again to continue")) none
      | .providerDisconnect =>
        ({ x.print (.warning "A provider disconnected from this server") with
            progress := .following position }, [])
      | _ => ({ x with progress := .following position }, [])
  | _ => (x, [])

/-- After its end a command is gone. -/
def step (x : Execution) (event : Event) : Turn :=
  match x.progress, event with
  | .ended _, _ => (x, [])
  | _, .node event =>
    if event.isWorldly then
      let (node, effects) := x.node.step event
      { x with node }.heed effects
    else (x, [])
  | _, .interrupt => x.interrupt
  | _, .receive => x.receive

/-- The execution after a sequence of events, and all effects in order. -/
def run (x : Execution) : List Event → Turn
  | [] => (x, [])
  | event :: rest =>
    let (x, effects) := x.step event
    let (x, more) := x.run rest
    (x, effects ++ more)

/-! ### The beginning -/

def noChannel : NodeError :=
  .configuration "no channel type configured; set node.channel_types or pass --channel"

/-- The channel to work on: the one that is asked for, or else the first one configured. -/
def channel? (configuration : Configuration) (asked : Option UInt32) : Option UInt32 :=
  asked.or configuration.node.channelTypes.head?

/-- The channel types to register for, with the one to work on among them. -/
def withChannel (channelTypes : List UInt32) (channel : UInt32) : List UInt32 :=
  if channelTypes.contains channel then channelTypes else channelTypes ++ [channel]

def fresh (configuration : Configuration) (command : Command) (channel : UInt32)
    (world : Surroundings) : Execution :=
  ⟨configuration, command, channel, .fresh configuration.keepAlive world, .registering, false, []⟩

/-- Register the node for channel types. -/
def register (x : Execution) (channelTypes : List UInt32) : Turn :=
  let options := x.configuration.node
  x.launch .registering (.session (.dial registerJob options.directoryAddress
    (.ofNode options.name channelTypes options.server))) registered

/-- Register the node for the channel to work on too, which there has to be. -/
def registerFor (configuration : Configuration) (command : Command) (asked : Option UInt32)
    (world : Surroundings) : Turn :=
  match channel? configuration asked with
  | some channel =>
    (fresh configuration command channel world).register
      (withChannel configuration.node.channelTypes channel)
  | none => (fresh configuration command 0 world).conclude none (some noChannel)

/-- A command begins. -/
def start (configuration : Configuration) (command : Command) (world : Surroundings) : Turn :=
  match command with
  | .register =>
    (fresh configuration command 0 world).register configuration.node.channelTypes
  | .advertise _ _ _ asked => registerFor configuration command asked world
  | .watch _ asked _ => registerFor configuration command asked world

end Execution

end ExchangeNode
