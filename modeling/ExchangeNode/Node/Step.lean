import ExchangeNode.Node.Basic

/-!
# How a node moves
-/

namespace ExchangeNode.Node

/-- A turn: the node after it, and its effects in order. -/
abbrev Turn := Node × List Effect

def ofSession (n : Node) (turn : Session.Turn) : Turn := ({ n with session := turn.1 }, turn.2)

def finish (n : Node) (job : Nat) (outcome : Outcome) : Turn :=
  ({ n with errands := n.errands.erase job }, [.finish job outcome])

/-- Open a client. It needs an id, so the node has to have been registered. -/
def connect (n : Node) (job client : Nat) (channelType : UInt32) (argument : String)
    (patience : Duration) : Turn :=
  match n.session.ids.generate n.session.world.clock with
  | .ok (id, ids) =>
    { n with
      session := { n.session with ids }
      clients := n.clients.set client (.opened id channelType argument patience) }.finish job
      (.issued id)
  | .error e => n.finish job (.failed e)

/-- An address has been dialed for a client or for the session. -/
def dialed (n : Node) (job : Nat) (result : Except WireError Unit) : Turn :=
  match n.errands.get? job, result with
  | some (.dialing client channelType argument patience), .ok () =>
    n.connect job client channelType argument patience
  | some (.dialing _ _ _ _), .error e => n.finish job (.failed (.wire e))
  -- No client dials under this number, so it is a registration that does.
  | _, result => n.ofSession (n.session.step (.dialed job result))

/-- Begin an operation of a client. -/
def operate (n : Node) (job client : Nat) (operation : Operation) : Turn :=
  match n.clients.get? client with
  | none => (n, [])
  | some c =>
    match c.begin n.session.ids n.session.world.clock operation with
    | .error e => n.finish job (.failed e)
    | .ok (request, pending, ids) =>
      let call := n.session.nextCall
      let wait : Wait := ⟨call, n.session.world.now + c.patience.millis⟩
      ({ n with
          session := { n.session with ids, nextCall := call + 1 }
          errands := n.errands.set job (.asking client pending wait .off) },
        [.call call request])

/-- A call was answered or has run out of time. A subscription that was accepted goes on to take
its first record. -/
def errandAnswered (n : Node) (job : Nat) (errand : Errand) (reply : Option Reply) : Turn :=
  match errand with
  | .dialing _ _ _ _ => (n, [])
  | .receiving _ _ => (n, [])
  | .asking client pending _ switch =>
    match n.clients.get? client with
    | none => (n, [])
    | some c =>
      let (c, proposals, outcome) := c.conclude n.session.proposals pending reply
      let n := { n with
        session := { n.session with proposals }
        clients := n.clients.set client c }
      match pending.method, outcome with
      | .subscribe _, .done =>
        ({ n with errands := n.errands.set job (.receiving true switch) }, [.pull job])
      | .subscribeBus, .done =>
        ({ n with errands := n.errands.set job (.receiving false switch) }, [.pull job])
      | _, outcome => n.finish job outcome

def answer (n : Node) (call : Nat) (reply : Option Reply) : Turn :=
  match n.errandWaiting? call with
  | some (job, errand) => n.errandAnswered job errand reply
  | none => n.ofSession (n.session.answer call reply)

/-- A call has run out of time. -/
def timeout (n : Node) (call : Nat) : Turn :=
  match n.errandWaiting? call with
  | some (job, errand) =>
    if errand.wait?.any (·.deadline ≤ n.session.world.now) then n.errandAnswered job errand none
    else (n, [])
  | none => n.ofSession (n.session.step (.timeout call))

/-- A subscription gets an item. While the node is locked, adverts are dropped. -/
def item (n : Node) (job : Nat) (item : Option (Except WireError Item)) : Turn :=
  match n.errands.get? job with
  | some (.receiving guarded _) =>
    match item with
    | none => n.finish job .done
    | some (.error e) => n.finish job (.failed (.wire e))
    | some (.ok item) =>
      if guarded && n.session.proposals.locked then (n, [.pull job])
      else (n, [.deliver job item, .pull job])
  | _ => (n, [])

def heed (n : Node) (job : Nat) : Turn :=
  match n.errands.get? job with
  | some (.receiving _ switch) => if switch.callsOff then n.finish job .done else (n, [])
  | _ => (n, [])

/-- Let time pass, but not beyond a deadline. -/
def elapse (n : Node) (millis : Nat) : Node :=
  if n.deadlines.all (n.session.world.now + millis ≤ ·) then
    { n with session := n.session.elapse millis }
  else n

def step (n : Node) : Event → Turn
  | .session event => n.ofSession (n.session.step event)
  | .dial job client address channelType argument patience =>
    ({ n with errands := n.errands.set job (.dialing client channelType argument patience) },
      [.dial job address])
  | .dialed job result => n.dialed job result
  | .connect job client channelType argument patience =>
    n.connect job client channelType argument patience
  | .operate job client operation => n.operate job client operation
  | .answer call reply => n.answer call (some reply)
  | .timeout call => n.timeout call
  | .item job item => n.item job item
  | .signal job signal => ({ n with errands := n.errands.modify job (·.signal signal) }, [])
  | .heed job => n.heed job
  | .abandon job =>
    ({ n with
        errands := n.errands.erase job
        session := (n.session.step (.abandon job)).1 }, [])
  | .elapse millis => (n.elapse millis, [])

/-- The node after a sequence of events, and all effects in order. -/
def run (n : Node) : List Event → Turn
  | [] => (n, [])
  | event :: rest =>
    let (n, effects) := n.step event
    let (n, more) := n.run rest
    (n, effects ++ more)

end ExchangeNode.Node
