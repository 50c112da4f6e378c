import ExchangeNode.Node.Schedule
import ExchangeNode.Node.Step
import ExchangeNode.Rehearsal.Script

/-!
# Rehearsals

A rehearsal runs a node, or what is built around one, against a script in virtual time. Time passes
only when everything waits, and then as far as the next thing that is due. At one time, what is
answered at once comes first, then whatever can go on, then the answers that are due, and then the
timers.
-/

namespace ExchangeNode

/-- What is going to happen at some time. -/
inductive Happening where
  | answer (call : Nat) (reply : Reply)
  | item (job : Nat) (item : Option (Except WireError Item))
  | cancel (job : Nat)
  /-- A pause of the user is over. -/
  | alarm (job : Nat)

/-- What can be rehearsed: a node or something that has one. -/
class Performer (σ : Type) where
  node : σ → Node
  step : σ → Node.Event → σ × List Effect
  /-- What it does of its own accord when it can. -/
  initiative? : σ → Option (σ × List Effect)

instance : Performer Node where
  node := id
  step := Node.step
  initiative? _ := none

structure Rehearsal (σ : Type) where
  performer : σ
  script : Script
  /-- Whether an address can be reached. -/
  network : String → Except WireError Unit
  /-- What happens before anything else. -/
  urgent : List Node.Event
  /-- What happens later, by time and then in the order in which it was arranged. -/
  schedule : List (Nat × Happening)
  /-- What is left of the streams that subscriptions have opened. -/
  streams : Table (List ScriptItem × Bool)
  /-- The calls since the log was last read, latest first. -/
  log : List (Nat × Request)
  /-- What subscriptions have delivered, latest first. -/
  records : Table (List (Nat × Item))
  outcomes : Table Outcome
  nextJob : Nat

namespace Rehearsal

/-- What a performer sees of the world before anything has happened. -/
def scene (clock : Int) : Surroundings := ⟨0, clock, 0.5, 0.0, 0.0⟩

variable {σ : Type}

def fresh (performer : σ) (script : Script) (network : String → Except WireError Unit) :
    Rehearsal σ where
  performer := performer
  script := script
  network := network
  urgent := []
  schedule := []
  streams := .empty
  log := []
  records := .empty
  outcomes := .empty
  nextJob := 0

variable [Performer σ]

def node (r : Rehearsal σ) : Node := Performer.node r.performer

def now (r : Rehearsal σ) : Nat := r.node.session.world.now

def insert (time : Nat) (h : Happening) : List (Nat × Happening) → List (Nat × Happening)
  | [] => [(time, h)]
  | (t, other) :: rest =>
    if time < t then (time, h) :: (t, other) :: rest else (t, other) :: insert time h rest

/-- Arrange for something to happen after a delay. -/
def arrange (r : Rehearsal σ) (delay : Nat) (h : Happening) : Rehearsal σ :=
  { r with schedule := insert (r.now + delay) h r.schedule }

/-- Without a delay at once, else later. -/
def soon (r : Rehearsal σ) (delay : Nat) (event : Node.Event) (h : Happening) : Rehearsal σ :=
  if delay = 0 then { r with urgent := event :: r.urgent } else r.arrange delay h

/-- A service is called. -/
def call (r : Rehearsal σ) (call : Nat) (request : Request) : Rehearsal σ :=
  let (entry, script) := r.script.take request.method
  let r := { r with script, log := (r.now, request) :: r.log }
  let behaviour := entry.resolve request
  let r := match behaviour, r.node.errandWaiting? call with
    | .stream items endless, some (job, _) =>
      { r with streams := r.streams.set job (items, endless) }
    | _, _ => r
  match behaviour.reply? with
  | some reply => r.soon entry.delay (.answer call reply) (.answer call reply)
  | none => r

/-- A subscription asks for its next item. -/
def pull (r : Rehearsal σ) (job : Nat) : Rehearsal σ :=
  match r.streams.get? job with
  | some (next :: rest, endless) =>
    { r with streams := r.streams.set job (rest, endless) }.soon next.delay
      (.item job (some next.item)) (.item job (some next.item))
  | some ([], true) => r
  | _ => r.soon 0 (.item job none) (.item job none)

def perform (r : Rehearsal σ) : Effect → Rehearsal σ
  | .dial job address =>
    { r with urgent := .dialed job (r.network address) :: r.urgent }
  | .call call request => r.call call request
  | .pull job => r.pull job
  | .deliver job item =>
    { r with records := r.records.set job ((r.now, item) :: (r.records.get? job).getD []) }
  | .finish job outcome => { r with outcomes := r.outcomes.set job outcome }

/-- The rehearsal after a turn of the performer and its effects. -/
def follow (r : Rehearsal σ) (turn : σ × List Effect) : Rehearsal σ :=
  turn.2.foldl perform { r with performer := turn.1 }

def turn (r : Rehearsal σ) (event : Node.Event) : Rehearsal σ :=
  r.follow (Performer.step r.performer event)

def happen (r : Rehearsal σ) : Happening → Rehearsal σ
  | .answer call reply => r.turn (.answer call reply)
  | .item job item => r.turn (.item job item)
  | .cancel job => r.turn (.cancel job)
  | .alarm job => { r with outcomes := r.outcomes.set job .done }

/-- One thing that happens now, if anything does. -/
def advance? (r : Rehearsal σ) : Option (Rehearsal σ) :=
  match r.urgent with
  | event :: urgent => some ({ r with urgent }.turn event)
  | [] =>
    match (r.node.ready?.map r.turn).or ((Performer.initiative? r.performer).map r.follow) with
    | some r => some r
    | none =>
      match r.schedule with
      | (time, h) :: schedule =>
        if time ≤ r.now then some ({ r with schedule }.happen h)
        else r.node.due?.map r.turn
      | [] => r.node.due?.map r.turn

/-- The next time at which anything happens. -/
def nextTime? (r : Rehearsal σ) : Option Nat :=
  (r.schedule.map (·.1) ++ r.node.deadlines).min?

/-- More turns than a rehearsal ever takes between two steps. -/
def manyTurns : Nat := 10000000

/-- Run until everything waits. -/
def settle (r : Rehearsal σ) : Nat → Rehearsal σ
  | 0 => r
  | fuel + 1 =>
    match r.advance? with
    | some r => settle r fuel
    | none => r

def finished (r : Rehearsal σ) (job : Nat) : Bool := r.outcomes.contains job

/-- Run until a job has ended, letting time pass. -/
def awaitJob (r : Rehearsal σ) (job : Nat) : Nat → Rehearsal σ
  | 0 => r
  | fuel + 1 =>
    if r.finished job then r
    else match r.advance? with
      | some r => awaitJob r job fuel
      | none =>
        match r.nextTime? with
        | some time => awaitJob (r.turn (.elapse (time - r.now))) job fuel
        | none => r

/-- A number for a new job. -/
def takeJob (r : Rehearsal σ) : Nat × Rehearsal σ :=
  (r.nextJob, { r with nextJob := r.nextJob + 1 })

/-- Run what is urgent. -/
def hurry (r : Rehearsal σ) : Nat → Rehearsal σ
  | 0 => r
  | fuel + 1 =>
    match r.urgent with
    | event :: rest => hurry ({ r with urgent := rest }.turn event) fuel
    | [] => r

/-- Start a job by its events; it runs until it has to wait. -/
def start (r : Rehearsal σ) (events : List Node.Event) : Rehearsal σ :=
  (events.foldl turn r).hurry manyTurns

def rest (r : Rehearsal σ) : Rehearsal σ := r.settle manyTurns

def await (r : Rehearsal σ) (job : Nat) : Rehearsal σ := r.awaitJob job manyTurns

/-- The calls since the log was last read, in order, and the rehearsal with an empty log. -/
def readLog (r : Rehearsal σ) : List (Nat × Request) × Rehearsal σ :=
  (r.log.reverse, { r with log := [] })

end Rehearsal

end ExchangeNode
