import ExchangeNode.Backoff
import ExchangeNode.Broadcast
import ExchangeNode.Configuration.Basic
import ExchangeNode.Effect
import ExchangeNode.IdGenerator
import ExchangeNode.Proposals
import ExchangeNode.Table

/-!
# Sessions

A session holds what a directory has given to a node and keeps it alive. The calls of its user run
as jobs; each registration starts a loop that sends heartbeats. Jobs and loops run side by side:
each of them goes on without interruption until it has to wait, for an answer, a time or the end of
a loop. What it waits for is written down in its stage, so every way in which jobs and loops can
take turns is a sequence of events.
-/

namespace ExchangeNode

/-- What a node can see of the world around it. -/
structure Surroundings where
  /-- Milliseconds by the clock that timers go by. -/
  now : Nat
  /-- The wall clock in Unix milliseconds. -/
  clock : Int
  /-- A number between zero and one. -/
  random : Float
  /-- The load of the host. -/
  cpu : Float
  memory : Float
  deriving DecidableEq, Repr

/-- A remote call that has not been answered. -/
structure Wait where
  call : Nat
  deadline : Nat
  deriving DecidableEq, Repr

inductive Phase where
  | unregistered
  | registering
  | active
  | reconnecting
  deriving DecidableEq, Repr, Inhabited

/-- What a heartbeat loop waits for. -/
inductive Stage where
  /-- Its turn to begin. -/
  | starting
  | sleeping (wake : Nat)
  /-- The reply to a heartbeat. -/
  | beating (wait : Wait)
  /-- The answer to a new registration that the directory asked for. -/
  | reconnecting (wait : Wait)
  /-- The answer to giving up the identity, as the directory ordered. -/
  | moving (wait : Wait) (order : HeartbeatReply)
  deriving DecidableEq, Repr

namespace Stage

def wait? : Stage → Option Wait
  | .beating wait => some wait
  | .reconnecting wait => some wait
  | .moving wait _ => some wait
  | _ => none

/-- When the loop wakes by itself. -/
def wake? : Stage → Option Nat
  | .sleeping wake => some wake
  | _ => none

end Stage

/-- A heartbeat loop. -/
structure Liveness where
  /-- Told to stop; it obeys the next time it would sleep. -/
  stopped : Bool
  /-- Failures in a row. -/
  failures : UInt32
  stage : Stage
  deriving DecidableEq, Repr

/-- What a job of a session waits for. -/
inductive Work where
  | dialing (address : String) (registration : Registration)
  /-- The end of a loop, before registering. -/
  | clearing (loop : Nat) (directory : String) (registration : Registration)
  | registering (wait : Wait) (directory : String) (registration : Registration)
  | revoking (wait : Wait)
  /-- The end of a loop, after which nothing is left to do. -/
  | stopping (loop : Nat)
  | asking (wait : Wait)
  deriving DecidableEq, Repr

namespace Work

def wait? : Work → Option Wait
  | .registering wait _ _ => some wait
  | .revoking wait => some wait
  | .asking wait => some wait
  | _ => none

def loop? : Work → Option Nat
  | .clearing loop _ _ => some loop
  | .stopping loop => some loop
  | _ => none

end Work

structure Session where
  phase : Phase
  /-- The directory the node is registered at. -/
  directory : Option String
  identity : Option Identity
  /-- The heartbeat sent last, as changed since. -/
  heartbeat : Heartbeat
  /-- What a new registration repeats. -/
  registration : Option Registration
  ids : IdGenerator
  proposals : Proposals
  /-- Messages handled since they were last reported. -/
  handled : UInt64
  /-- Commands that are for the user of the session. -/
  commands : Broadcast HeartbeatReply
  /-- The loop that was started last, unless it has been told to stop and is waited for. -/
  current : Option Nat
  /-- When the lock set by a move that has to wait is released. -/
  release : Option Nat
  loops : Table Liveness
  jobs : Table Work
  nextLoop : Nat
  nextCall : Nat
  backoff : Backoff
  moveWait : Duration
  world : Surroundings
  deriving DecidableEq, Repr

namespace Session

def fresh (options : KeepAliveOptions) (world : Surroundings) : Session where
  phase := .unregistered
  directory := none
  identity := none
  heartbeat := .blank
  registration := none
  ids := .unseeded
  proposals := .empty
  handled := 0
  commands := .empty
  current := none
  release := none
  loops := .empty
  jobs := .empty
  nextLoop := 0
  nextCall := 0
  backoff := ⟨.ofSeconds options.longestBackoffSeconds.toNat, options.jitter⟩
  moveWait := .ofSeconds options.serverChangeWaitSeconds.toNat
  world := world

/-- How long a call to the directory may take. -/
def patience : Duration := .ofSeconds 10

/-- The identity, while it has not been given up. -/
def live? (s : Session) : Option Identity := s.identity.filter Identity.isLive

/-- The node number, while the identity has not been given up. -/
def node? (s : Session) : Option Int32 := s.live?.map (·.node)

/-- The exchange assigned at registration. -/
def exchange? (s : Session) : Option String := s.identity.map (·.exchangeAddress)

def isServer (s : Session) : Bool :=
  match s.registration with
  | some registration => registration.nodeType = .server
  | none => false

/-- Who waits for the answer to a call. -/
def loopWaiting? (s : Session) (call : Nat) : Option (Nat × Liveness) :=
  s.loops.entries.find? fun entry => entry.2.stage.wait?.any (·.call = call)

def jobWaiting? (s : Session) (call : Nat) : Option (Nat × Work) :=
  s.jobs.entries.find? fun entry => entry.2.wait?.any (·.call = call)

/-- All times at which something happens by itself. -/
def deadlines (s : Session) : List Nat :=
  s.loops.entries.filterMap (fun entry => entry.2.stage.wake?) ++
    s.loops.entries.filterMap (fun entry => entry.2.stage.wait?.map (·.deadline)) ++
    s.jobs.entries.filterMap (fun entry => entry.2.wait?.map (·.deadline)) ++ s.release.toList

end Session

end ExchangeNode
