import ExchangeNode.Session.Basic
import ExchangeNode.Wire.Reply

/-!
# How a session moves

Each function here is one turn: what a job or a loop does between two waits, with the effects it
has on the world.
-/

namespace ExchangeNode.Session

/-- A turn: the session after it, and its effects in order. -/
abbrev Turn := Session × List Effect

def finish (s : Session) (job : Nat) (outcome : Outcome) : Turn :=
  ({ s with jobs := s.jobs.erase job }, [.finish job outcome])

/-- A call that begins now. -/
def newWait (s : Session) : Wait := ⟨s.nextCall, s.world.now + patience.millis⟩

/-- A job makes a call and waits for its answer. -/
def jobCalls (s : Session) (job : Nat) (work : Wait → Work) (request : Request) : Turn :=
  ({ s with jobs := s.jobs.set job (work s.newWait), nextCall := s.nextCall + 1 },
    [.call s.nextCall request])

/-- A loop makes a call and waits for its answer. -/
def loopCalls (s : Session) (loop : Nat) (l : Liveness) (stage : Wait → Stage)
    (request : Request) : Turn :=
  ({ s with
      loops := s.loops.set loop { l with stage := stage s.newWait }
      nextCall := s.nextCall + 1 },
    [.call s.nextCall request])

/-- Tell the current loop to stop. -/
def stopCurrent (s : Session) : Session :=
  { s with
    loops := s.current.elim s.loops fun loop =>
      s.loops.modify loop fun l => { l with stopped := true } }

/-- Call off a release and tell the current loop to stop; the loop that has yet to end, if any. -/
def halt (s : Session) : Session × Option Nat :=
  -- The loop goes on until it heeds this, and may arm another release until then.
  let stopped := { s.stopCurrent with release := none, current := none }
  (stopped, s.current.filter s.loops.contains)

/-! ### The loop -/

/-- The pause between heartbeats that the directory asked for, at least a second. -/
def interval (identity : Identity) : Duration :=
  .ofSeconds (max 1 identity.heartbeatSeconds.toInt).toNat

def endLoop (s : Session) (loop : Nat) : Session := { s with loops := s.loops.erase loop }

/-- The loop goes to sleep until its next heartbeat, or ends with the identity. -/
def pause (s : Session) (loop : Nat) (l : Liveness) : Session :=
  { s with
    loops := match s.live? with
      | some identity =>
        let delay := s.backoff.delay (interval identity) l.failures s.world.random
        s.loops.set loop { l with stage := .sleeping (s.world.now + delay.millis) }
      | none => s.loops.erase loop }

/-- The heartbeat that is due now. A server reports its load and the messages it has handled. -/
def nextHeartbeat (s : Session) : Heartbeat :=
  let load :=
    if s.isServer then some ⟨s.world.cpu, s.world.memory, s.handled⟩ else s.heartbeat.load
  { s.heartbeat with load, count := s.heartbeat.count + 1 }

/-- The loop sends a heartbeat, or ends with the identity. -/
def beat (s : Session) (loop : Nat) (l : Liveness) : Turn :=
  if s.live?.isSome && s.directory.isSome then
    let heartbeat := s.nextHeartbeat
    let handled := if s.isServer then 0 else s.handled
    { s with heartbeat, handled }.loopCalls loop l .beating (.keepAlive heartbeat)
  else (s.endLoop loop, [])

/-- The loop asks for a new registration under the number held so far. -/
def reconnect (s : Session) (loop : Nat) (l : Liveness) : Turn :=
  match s.registration with
  | some registration =>
    if s.directory.isSome then
      let previousNode := s.identity.elim (-1) (·.node)
      { s with phase := .reconnecting }.loopCalls loop l .reconnecting
        (.register { registration with previousNode })
    else (s.pause loop { l with failures := l.failures + 1 }, [])
  | none => (s.pause loop { l with failures := l.failures + 1 }, [])

/-- A new registration was answered. A failure keeps the identity. -/
def reconnected (s : Session) (loop : Nat) (l : Liveness) (result : Except NodeError Identity) :
    Session :=
  let s := { s with phase := .active }
  match result with
  -- Unlike in `registered`, a number that ids cannot be issued under is taken on as it is.
  | .ok identity =>
    let renewed := { s with
      ids := s.ids.reseed identity.node.toInt
      heartbeat := { s.heartbeat with node := identity.node, secret := identity.secret }
      identity := some identity }
    renewed.pause loop { l with failures := 0 }
  | .error _ => s.pause loop { l with failures := l.failures + 1 }

/-- Give up the identity, and let the current loop know. -/
def revoke (s : Session) : Session :=
  { s.stopCurrent with
    identity := s.identity.map Identity.revoked
    heartbeat := { s.heartbeat with secret := 0 }
    phase := .unregistered }

/-- The node has left its exchange: tell the user, and forget all proposals. -/
def moved (s : Session) (loop : Nat) (l : Liveness) (order : HeartbeatReply) : Session :=
  { s with commands := s.commands.send order, proposals := .empty }.pause loop l

/-- The node has to move to another exchange. With proposals in flight it is locked instead, and
released after a while; a lock that stands already is left as it is. -/
def move (s : Session) (loop : Nat) (l : Liveness) (order : HeartbeatReply) : Turn :=
  if s.proposals.isSafe then
    match s.live? with
    | some identity =>
      if s.directory.isSome then s.loopCalls loop l (.moving · order) (.unregister identity)
      else (s.moved loop l order, [])
    | none => (s.moved loop l order, [])
  else if s.proposals.locked then (s.pause loop l, [])
  else
    ({ s with
        proposals := s.proposals.lock
        release := some (s.world.now + s.moveWait.millis) }.pause loop l, [])

/-- Failures counted without going past the largest number. -/
def oneMore (failures : UInt32) : UInt32 := if failures = 4294967295 then failures else failures + 1

/-- A heartbeat was answered: count a refusal as a failure, and obey the command. -/
def replied (s : Session) (loop : Nat) (l : Liveness) (reply : HeartbeatReply) : Turn :=
  let l := { l with failures := if reply.ok then 0 else oneMore l.failures }
  match reply.command with
  | .nothing => (s.pause loop l, [])
  | .reconnect => s.reconnect loop l
  | .serverChange => s.move loop l reply
  | .providerDisconnect =>
    let s := if s.isServer then { s with commands := s.commands.send reply } else s
    (s.pause loop l, [])

def beaten (s : Session) (loop : Nat) (l : Liveness) (result : Except NodeError HeartbeatReply) :
    Turn :=
  match result with
  | .ok reply => s.replied loop l reply
  | .error _ => (s.pause loop { l with failures := oneMore l.failures }, [])

/-! ### Jobs -/

/-- Start a loop and make it the current one. The one before is told to stop. -/
def startLoop (s : Session) : Session :=
  let s := s.stopCurrent
  { s with
    loops := s.loops.set s.nextLoop ⟨false, 0, .starting⟩
    current := some s.nextLoop
    nextLoop := s.nextLoop + 1 }

def apply (s : Session) (job : Nat) (directory : String) (registration : Registration) : Turn :=
  { s with phase := .registering }.jobCalls job (.registering · directory registration)
    (.register registration)

/-- Register at a directory, once the current loop has ended. -/
def register (s : Session) (job : Nat) (directory : String) (registration : Registration) : Turn :=
  match s.halt with
  | (s, some loop) =>
    ({ s with jobs := s.jobs.set job (.clearing loop directory registration) }, [])
  | (s, none) => s.apply job directory registration

/-- Forget everything a directory has given, but for the count of heartbeats. -/
def forget (s : Session) : Session :=
  { s with
    identity := none
    directory := none
    registration := none
    heartbeat := { Heartbeat.blank with count := s.heartbeat.count }
    phase := .unregistered
    ids := s.ids.clear }

/-- Take on an identity whose number ids can be issued under. -/
def adopt (s : Session) (directory : String) (registration : Registration) (identity : Identity) :
    Session :=
  { s with
    ids := s.ids.reseed identity.node.toInt
    heartbeat := { Heartbeat.blank with
      node := identity.node
      secret := identity.secret
      count := s.heartbeat.count }
    identity := some identity
    registration := some registration
    directory := some directory
    phase := .active
    proposals := .empty }

def registered (s : Session) (job : Nat) (directory : String) (registration : Registration)
    (result : Except NodeError Identity) : Turn :=
  match result with
  | .ok identity =>
    if IdGenerator.accepts identity.node.toInt then
      (s.adopt directory registration identity).startLoop.finish job
        (.exchange identity.exchangeAddress)
    else s.forget.finish job (.failed (.invalidNodeNumber identity.node.toInt))
  | .error e => s.forget.finish job (.failed e)

/-- Wait for the current loop to end, and be done. -/
def shutdown (s : Session) (job : Nat) : Turn :=
  match s.halt with
  | (s, some loop) => ({ s with jobs := s.jobs.set job (.stopping loop) }, [])
  | (s, none) => s.finish job .done

/-- Give up the identity at the directory. -/
def unregister (s : Session) (job : Nat) : Turn :=
  match s.live? with
  | some identity =>
    if s.directory.isSome then s.jobCalls job .revoking (.unregister identity)
    else s.finish job (.failed .notRegistered)
  | none => s.finish job (.failed .notRegistered)

/-- The directory has answered; the identity is given up whatever it said. -/
def revoked (s : Session) (job : Nat) : Turn := s.revoke.shutdown job

def unknownName : String := "Unknown"

/-- Ask for the name of another node. -/
def query (s : Session) (job : Nat) (node : Int32) : Turn :=
  if s.directory.isSome then s.jobCalls job .asking (.queryNode node)
  else s.finish job (.name unknownName)

def queried (s : Session) (job : Nat) (result : Except NodeError Registration) : Turn :=
  match result with
  | .ok registration => s.finish job (.name registration.name)
  | .error _ => s.finish job (.name unknownName)

/-! ### Events -/

/-- The session's view of a reply or of the lack of one. -/
def judge (method : Method) : Option Reply → Except NodeError method.Answer
  | some (.ok response) => (method.expect response).mapError .wire
  | some (.error e) => .error (.wire e)
  | none => .error (.timeout method patience.seconds)

/-- A call of a loop was answered, or has run out of time. -/
def loopAnswered (s : Session) (loop : Nat) (l : Liveness) (reply : Option Reply) : Turn :=
  match l.stage with
  | .beating _ => s.beaten loop l (judge .keepAlive reply)
  | .reconnecting _ => (s.reconnected loop l (judge .register reply), [])
  -- The identity is given up whatever the answer says.
  | .moving _ order => (s.revoke.moved loop ((s.revoke.loops.get? loop).getD l) order, [])
  | _ => (s, [])

/-- A call of a job was answered, or has run out of time. -/
def jobAnswered (s : Session) (job : Nat) (work : Work) (reply : Option Reply) : Turn :=
  match work with
  | .registering _ directory registration =>
    s.registered job directory registration (judge .register reply)
  | .revoking _ => s.revoked job
  | .asking _ => s.queried job (judge .queryNode reply)
  | _ => (s, [])

/-- What can happen to a session. -/
inductive Event where
  /-- The user registers at an address that has to be dialed first. -/
  | dial (job : Nat) (address : String) (registration : Registration)
  | dialed (job : Nat) (result : Except WireError Unit)
  /-- The user registers at a directory that has been reached. -/
  | register (job : Nat) (directory : String) (registration : Registration)
  | unregister (job : Nat)
  | shutdown (job : Nat)
  | query (job : Nat) (node : Int32)
  | setStatus (status : Int32) (detail : String)
  | countMessage
  | answer (call : Nat) (reply : Reply)
  /-- A call has run out of time. -/
  | timeout (call : Nat)
  /-- A loop begins, or its sleep is over. -/
  | wake (loop : Nat)
  /-- A loop heeds that it was told to stop. -/
  | heed (loop : Nat)
  /-- A job goes on after the loop it waited for. -/
  | proceed (job : Nat)
  /-- A lock has lasted long enough. -/
  | release
  /-- The user no longer waits for a job. -/
  | abandon (job : Nat)
  /-- Time passes, but not beyond a deadline. -/
  | elapse (millis : Nat)
  | setClock (clock : Int)
  | setRandom (random : Float)
  | setLoad (cpu memory : Float)
  | reseed (n : Int)
  | generate (job : Nat)
  | track {side : Side} (advert : Advert side)
  | retire (id : UInt64)
  | lock
  | reset

def answer (s : Session) (call : Nat) (reply : Option Reply) : Turn :=
  match s.loopWaiting? call with
  | some (loop, l) => s.loopAnswered loop l reply
  | none =>
    match s.jobWaiting? call with
    | some (job, work) => s.jobAnswered job work reply
    | none => (s, [])

/-- Whether the time given to a call is over. -/
def isLate (s : Session) (call : Nat) : Bool :=
  let wait := match s.loopWaiting? call with
    | some (_, l) => l.stage.wait?
    | none => (s.jobWaiting? call).bind fun entry => entry.2.wait?
  wait.any (·.deadline ≤ s.world.now)

def wake (s : Session) (loop : Nat) : Turn :=
  match s.loops.get? loop with
  | some l =>
    match l.stage with
    | .starting => (s.pause loop l, [])
    -- A loop that was told to stop may find that its sleep is over before it heeds that.
    | .sleeping wake => if wake ≤ s.world.now then s.beat loop l else (s, [])
    | _ => (s, [])
  | none => (s, [])

def heed (s : Session) (loop : Nat) : Session :=
  match s.loops.get? loop with
  | some l =>
    match l.stopped, l.stage with
    -- Only in its sleep does a loop look whether it was told to stop.
    | true, .sleeping _ => s.endLoop loop
    | _, _ => s
  | none => s

def proceed (s : Session) (job : Nat) : Turn :=
  match s.jobs.get? job with
  -- What the loop has done on its way to its end is not looked at again.
  | some (.clearing loop directory registration) =>
    if s.loops.contains loop then (s, []) else s.apply job directory registration
  | some (.stopping loop) => if s.loops.contains loop then (s, []) else s.finish job .done
  | _ => (s, [])

def dialed (s : Session) (job : Nat) (result : Except WireError Unit) : Turn :=
  match s.jobs.get? job, result with
  | some (.dialing address registration), .ok () => s.register job address registration
  | some (.dialing _ _), .error e => s.finish job (.failed (.wire e))
  | _, _ => (s, [])

def generate (s : Session) (job : Nat) : Turn :=
  match s.ids.generate s.world.clock with
  | .ok (id, ids) => { s with ids }.finish job (.issued id)
  | .error e => s.finish job (.failed e)

def elapse (s : Session) (millis : Nat) : Session :=
  if s.deadlines.all (s.world.now + millis ≤ ·) then
    { s with world :=
        { s.world with now := s.world.now + millis, clock := s.world.clock + millis } }
  else s

def releaseLock (s : Session) : Session :=
  match s.release with
  | some due =>
    if due ≤ s.world.now then { s with release := none, proposals := .empty } else s
  | none => s

def step (s : Session) : Event → Turn
  | .dial job address registration =>
    ({ s with jobs := s.jobs.set job (.dialing address registration) }, [.dial job address])
  | .dialed job result => s.dialed job result
  | .register job directory registration => s.register job directory registration
  | .unregister job => s.unregister job
  | .shutdown job => s.shutdown job
  | .query job node => s.query job node
  | .setStatus status detail => ({ s with heartbeat := { s.heartbeat with status, detail } }, [])
  | .countMessage => ({ s with handled := s.handled + 1 }, [])
  | .answer call reply => s.answer call (some reply)
  | .timeout call => if s.isLate call then s.answer call none else (s, [])
  | .wake loop => s.wake loop
  | .heed loop => (s.heed loop, [])
  | .proceed job => s.proceed job
  | .release => (s.releaseLock, [])
  | .abandon job => ({ s with jobs := s.jobs.erase job }, [])
  | .elapse millis => (s.elapse millis, [])
  | .setClock clock => ({ s with world := { s.world with clock } }, [])
  | .setRandom random => ({ s with world := { s.world with random } }, [])
  | .setLoad cpu memory => ({ s with world := { s.world with cpu, memory } }, [])
  | .reseed n => ({ s with ids := s.ids.reseed n }, [])
  | .generate job => s.generate job
  | .track advert => ({ s with proposals := s.proposals.track advert }, [])
  | .retire id => ({ s with proposals := s.proposals.retire id }, [])
  | .lock => ({ s with proposals := s.proposals.lock }, [])
  | .reset => ({ s with proposals := .empty }, [])

end ExchangeNode.Session
