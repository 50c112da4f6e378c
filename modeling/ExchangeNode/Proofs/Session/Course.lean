import ExchangeNode.Session.Registration
import ExchangeNode.Session.Step

/-!
# The course of a session

`Course` lists everything that one event can do to a session, with the guards under which it does
so. What is shown of a session for all times is shown for each line of this list, and carried along
a run by `run_invariant`.
-/

namespace ExchangeNode.Session

/-! ### Runs -/

/-- The session after a sequence of events, and all effects in order. -/
def run (s : Session) : List Event → Turn
  | [] => (s, [])
  | event :: rest =>
    let (s, effects) := s.step event
    let (s, more) := s.run rest
    (s, effects ++ more)

theorem run_cons (s : Session) (event : Event) (rest : List Event) :
    s.run (event :: rest) =
      (((s.step event).1.run rest).1, (s.step event).2 ++ ((s.step event).1.run rest).2) := rfl

theorem run_append (s : Session) (first more : List Event) :
    s.run (first ++ more) =
      (((s.run first).1.run more).1, (s.run first).2 ++ ((s.run first).1.run more).2) := by
  induction first generalizing s with
  | nil => simp [run]
  | cons event rest ih => simp [run_cons, ih]

theorem run_concat (s : Session) (events : List Event) (event : Event) :
    s.run (events ++ [event]) =
      (((s.run events).1.step event).1, (s.run events).2 ++ ((s.run events).1.step event).2) := by
  simp [run_append, run]

theorem run_invariant (holds : Session → Prop) (kept : ∀ s event, holds s → holds (s.step event).1)
    {s : Session} (initially : holds s) (events : List Event) : holds (s.run events).1 := by
  induction events generalizing s with
  | nil => exact initially
  | cons event rest ih => exact ih (kept s event initially)

/-- A list is split at its head or further on. -/
theorem exists_split_cons {α : Type} {p : List α → α → List α → Prop} {first : α} {rest : List α} :
    (∃ before x after, first :: rest = before ++ x :: after ∧ p before x after) ↔
      p [] first rest ∨
        ∃ before x after, rest = before ++ x :: after ∧ p (first :: before) x after := by
  constructor
  · rintro ⟨before, x, after, split, holds⟩
    cases before with
    | nil =>
      obtain ⟨rfl, rfl⟩ := List.cons.inj split
      exact .inl holds
    | cons head before =>
      obtain ⟨rfl, rfl⟩ := List.cons.inj split
      exact .inr ⟨before, x, after, rfl, holds⟩
  · rintro (holds | ⟨before, x, after, rfl, holds⟩)
    · exact ⟨[], first, rest, rfl, holds⟩
    · exact ⟨first :: before, x, after, rfl, holds⟩

/-- Every event of a run is allowed where it happens. -/
def Throughout (allowed : Session → Event → Prop) (s : Session) : List Event → Prop
  | [] => True
  | event :: rest => allowed s event ∧ Throughout allowed (s.step event).1 rest

instance decidableThroughout {allowed : Session → Event → Prop}
    [∀ s event, Decidable (allowed s event)] (s : Session) :
    (events : List Event) → Decidable (Throughout allowed s events)
  | [] => .isTrue trivial
  | event :: rest =>
    have : Decidable (Throughout allowed (s.step event).1 rest) :=
      decidableThroughout (s.step event).1 rest
    inferInstanceAs (Decidable (_ ∧ _))

theorem throughout_append {allowed : Session → Event → Prop} (s : Session)
    (first more : List Event) :
    Throughout allowed s (first ++ more) ↔
      Throughout allowed s first ∧ Throughout allowed (s.run first).1 more := by
  induction first generalizing s with
  | nil => simp [Throughout, run]
  | cons event rest ih =>
    rw [List.cons_append, Throughout, Throughout, ih, run_cons, and_assoc]

theorem throughout_invariant {allowed : Session → Event → Prop} (holds : Session → Prop)
    (kept : ∀ s event, allowed s event → holds s → holds (s.step event).1) {s : Session}
    (initially : holds s) {events : List Event} (throughout : Throughout allowed s events) :
    holds (s.run events).1 := by
  induction events generalizing s with
  | nil => exact initially
  | cons event rest ih => exact ih (kept s event throughout.1 initially) throughout.2

/-! ### Who hears of an answer -/

/-- The call that an event brings to its end, and the reply unless the call was given up. -/
def heard? (s : Session) : Event → Option (Nat × Option Reply)
  | .answer call reply => some (call, some reply)
  | .timeout call => if s.isLate call then some (call, none) else none
  | _ => none

/-- The loop that goes on with what it hears. -/
def loopHears? (s : Session) (event : Event) : Option (Nat × Liveness × Option Reply) :=
  (s.heard? event).bind fun (call, reply) =>
    (s.loopWaiting? call).map fun (loop, l) => (loop, l, reply)

/-- The job that goes on with what it hears. -/
def jobHears? (s : Session) (event : Event) : Option (Nat × Work × Option Reply) :=
  (s.heard? event).bind fun (call, reply) =>
    match s.loopWaiting? call with
    | some _ => none
    | none => (s.jobWaiting? call).map fun (job, work) => (job, work, reply)

theorem loopWaiting?_spec {s : Session} {call loop : Nat} {l : Liveness}
    (found : s.loopWaiting? call = some (loop, l)) :
    s.loops.get? loop = some l ∧ ∃ wait, l.stage.wait? = some wait ∧ wait.call = call := by
  have member := List.mem_of_find?_eq_some found
  have waits := List.find?_some found
  refine ⟨Table.get?_of_mem member, ?_⟩
  simpa [Option.any_eq_true] using waits

theorem jobWaiting?_spec {s : Session} {call job : Nat} {work : Work}
    (found : s.jobWaiting? call = some (job, work)) :
    s.jobs.get? job = some work ∧ ∃ wait, work.wait? = some wait ∧ wait.call = call := by
  have member := List.mem_of_find?_eq_some found
  have waits := List.find?_some found
  refine ⟨Table.get?_of_mem member, ?_⟩
  simpa [Option.any_eq_true] using waits

theorem loopHears?_spec {s : Session} {event : Event} {loop : Nat} {l : Liveness}
    {reply : Option Reply} (hears : s.loopHears? event = some (loop, l, reply)) :
    s.loops.get? loop = some l ∧
      ∃ wait, l.stage.wait? = some wait ∧ s.heard? event = some (wait.call, reply) := by
  obtain ⟨⟨call, heard⟩, ends, waits⟩ := Option.bind_eq_some_iff.mp hears
  obtain ⟨⟨other, m⟩, waiting, same⟩ := Option.map_eq_some_iff.mp waits
  cases same
  obtain ⟨found, wait, isWait, rfl⟩ := loopWaiting?_spec waiting
  exact ⟨found, wait, isWait, ends⟩

theorem jobHears?_spec {s : Session} {event : Event} {job : Nat} {work : Work}
    {reply : Option Reply} (hears : s.jobHears? event = some (job, work, reply)) :
    s.jobs.get? job = some work := by
  obtain ⟨⟨call, heard⟩, ends, waits⟩ := Option.bind_eq_some_iff.mp hears
  dsimp only at waits
  split at waits
  · cases waits
  · obtain ⟨⟨other, w⟩, waiting, same⟩ := Option.map_eq_some_iff.mp waits
    cases same
    exact (jobWaiting?_spec waiting).1

/-- The call that a job hears the end of is the one that it waits for. -/
theorem heard?_of_jobHears? {s : Session} {event : Event} {job : Nat} {work : Work}
    {reply : Option Reply} (hears : s.jobHears? event = some (job, work, reply)) :
    ∃ wait, work.wait? = some wait ∧ s.heard? event = some (wait.call, reply) := by
  obtain ⟨⟨call, heard⟩, ends, waits⟩ := Option.bind_eq_some_iff.mp hears
  dsimp only at waits
  split at waits
  · cases waits
  · obtain ⟨⟨other, w⟩, waiting, same⟩ := Option.map_eq_some_iff.mp waits
    cases same
    obtain ⟨-, wait, isWait, rfl⟩ := jobWaiting?_spec waiting
    exact ⟨wait, isWait, ends⟩

/-- What a loop hears, no job hears. -/
theorem jobHears?_of_loopHears? {s : Session} {event : Event} {loop : Nat} {l : Liveness}
    {reply : Option Reply} (hears : s.loopHears? event = some (loop, l, reply)) :
    s.jobHears? event = none := by
  obtain ⟨⟨call, heard⟩, ends, waits⟩ := Option.bind_eq_some_iff.mp hears
  obtain ⟨entry, waiting, -⟩ := Option.map_eq_some_iff.mp waits
  simp [jobHears?, ends, waiting]

theorem loopHears?_of_jobHears? {s : Session} {event : Event} {job : Nat} {work : Work}
    {reply : Option Reply} (hears : s.jobHears? event = some (job, work, reply)) :
    s.loopHears? event = none := by
  cases heard : s.loopHears? event with
  | none => rfl
  | some entry =>
    rw [jobHears?_of_loopHears? heard] at hears
    cases hears

/-- A call that comes to its end is answered. -/
theorem step_of_heard {s : Session} {event : Event} {call : Nat} {reply : Option Reply}
    (heard : s.heard? event = some (call, reply)) : s.step event = s.answer call reply := by
  cases event with
  | answer => cases heard; rfl
  | timeout call =>
    simp only [heard?] at heard
    split at heard
    next late =>
      cases heard
      exact if_pos late
    next => cases heard
  | _ => cases heard

theorem step_of_loopHears? {s : Session} {event : Event} {loop : Nat} {l : Liveness}
    {reply : Option Reply} (hears : s.loopHears? event = some (loop, l, reply)) :
    s.step event = s.loopAnswered loop l reply := by
  obtain ⟨⟨call, heard⟩, ends, waits⟩ := Option.bind_eq_some_iff.mp hears
  obtain ⟨⟨other, m⟩, waiting, same⟩ := Option.map_eq_some_iff.mp waits
  cases same
  simp only [step_of_heard ends, answer, waiting]

theorem step_of_jobHears? {s : Session} {event : Event} {job : Nat} {work : Work}
    {reply : Option Reply} (hears : s.jobHears? event = some (job, work, reply)) :
    s.step event = s.jobAnswered job work reply := by
  obtain ⟨⟨call, heard⟩, ends, waits⟩ := Option.bind_eq_some_iff.mp hears
  dsimp only at waits
  split at waits
  -- Had a loop waited for the call, no job would have heard of it.
  · cases waits
  next free =>
    obtain ⟨⟨other, w⟩, waiting, same⟩ := Option.map_eq_some_iff.mp waits
    cases same
    simp only [step_of_heard ends, answer, free, waiting]

/-- A loop that is ordered to register again asks for that, if the session has what it takes. -/
theorem step_of_reconnect {s : Session} {event : Event} {loop : Nat} {l : Liveness} {wait : Wait}
    {reply : Option Reply} {order : HeartbeatReply} {registration : Registration}
    (hears : s.loopHears? event = some (loop, l, reply)) (beating : l.stage = .beating wait)
    (answered : judge .keepAlive reply = .ok order) (ordered : order.command = .reconnect)
    (repeats : s.registration = some registration) (reached : s.directory.isSome) :
    s.step event = { s with phase := .reconnecting }.loopCalls loop
      { l with failures := if order.ok then 0 else oneMore l.failures } .reconnecting
      (.register { registration with previousNode := s.identity.elim (-1) (·.node) }) := by
  rw [step_of_loopHears? hears]
  simp only [loopAnswered, beating, answered, beaten, replied, ordered, reconnect, repeats, reached,
    if_true]

/-- What a registration that begins is to register, and where. -/
def applicant? (s : Session) : Event → Option (Nat × String × Registration)
  | .register job directory registration => some (job, directory, registration)
  | .dialed job (.ok ()) =>
    match s.jobs.get? job with
    | some (.dialing address registration) => some (job, address, registration)
    | _ => none
  | _ => none

/-- A registration begins with a call, or with the end of a call to dial. -/
theorem applicant?_spec {s : Session} {event : Event} {job : Nat} {directory : String}
    {registration : Registration}
    (applies : s.applicant? event = some (job, directory, registration)) :
    event = .register job directory registration ∨
      (event = .dialed job (.ok ()) ∧
        s.jobs.get? job = some (.dialing directory registration)) := by
  cases event with
  | register =>
    cases applies
    exact .inl rfl
  | dialed other result =>
    cases result with
    | error => cases applies
    | ok =>
      simp only [applicant?] at applies
      split at applies
      next dialing =>
        cases applies
        exact .inr ⟨rfl, dialing⟩
      next => cases applies
  | _ => cases applies

/-! ### What an event can do -/

/-- Whether an event may find that there is nothing to do. -/
def Event.mayMiss : Event → Bool
  | .dialed _ _ | .answer _ _ | .timeout _ | .wake _ | .heed _ | .proceed _ | .release => true
  | _ => false

/-- Whether an event changes nothing but the surroundings. -/
def Event.isOutside : Event → Bool
  | .elapse _ | .setClock _ | .setRandom _ | .setLoad _ _ => true
  | _ => false

/-- What an event does to a session, and when. -/
inductive Course (s : Session) : Event → Turn → Prop where
  | misses {event} (may : event.mayMiss) (noLoop : s.loopHears? event = none)
      (noJob : s.jobHears? event = none) : Course s event (s, [])
  | outside {event} (world : Surroundings) (isOutside : event.isOutside) :
      Course s event ({ s with world }, [])
  -- Registering.
  | dials {job address registration} :
      Course s (.dial job address registration)
        ({ s with jobs := s.jobs.set job (.dialing address registration) }, [.dial job address])
  | undialed {job address registration error}
      (dialing : s.jobs.get? job = some (.dialing address registration)) :
      Course s (.dialed job (.error error)) (s.finish job (.failed (.wire error)))
  | clears {event job directory registration loop}
      (applies : s.applicant? event = some (job, directory, registration))
      (busy : s.halt.2 = some loop) :
      Course s event
        ({ s.halt.1 with jobs := s.jobs.set job (.clearing loop directory registration) }, [])
  | applies {event job directory registration}
      (applies : s.applicant? event = some (job, directory, registration))
      (idle : s.halt.2 = none) : Course s event (s.halt.1.apply job directory registration)
  | cleared {job loop directory registration}
      (clearing : s.jobs.get? job = some (.clearing loop directory registration))
      (ended : s.loops.get? loop = none) :
      Course s (.proceed job) (s.apply job directory registration)
  | adopts {event job wait directory registration reply identity}
      (hears : s.jobHears? event = some (job, .registering wait directory registration, reply))
      (granted : judge .register reply = .ok identity)
      (accepted : IdGenerator.accepts identity.node.toInt) :
      Course s event ((s.adopt directory registration identity).startLoop.finish job
        (.exchange identity.exchangeAddress))
  | forgets {event job wait directory registration reply error}
      (hears : s.jobHears? event = some (job, .registering wait directory registration, reply))
      (denied : ∀ identity, judge .register reply = .ok identity →
        IdGenerator.accepts identity.node.toInt = false) :
      Course s event (s.forget.finish job (.failed error))
  -- Giving up.
  | unregisters {job identity} (live : s.live? = some identity) :
      Course s (.unregister job) (s.jobCalls job .revoking (.unregister identity))
  | unregistersInVain {job} :
      Course s (.unregister job) (s.finish job (.failed .notRegistered))
  | revokes {event job wait reply loop}
      (hears : s.jobHears? event = some (job, .revoking wait, reply))
      (busy : s.revoke.halt.2 = some loop) :
      Course s event
        ({ s.revoke.halt.1 with jobs := s.jobs.set job (.stopping loop) }, [])
  | revokesAtLast {event job wait reply}
      (hears : s.jobHears? event = some (job, .revoking wait, reply))
      (idle : s.revoke.halt.2 = none) : Course s event (s.revoke.halt.1.finish job .done)
  | stops {job loop} (busy : s.halt.2 = some loop) :
      Course s (.shutdown job) ({ s.halt.1 with jobs := s.jobs.set job (.stopping loop) }, [])
  | stopsAtOnce {job} (idle : s.halt.2 = none) :
      Course s (.shutdown job) (s.halt.1.finish job .done)
  | stopped {job loop} (stopping : s.jobs.get? job = some (.stopping loop))
      (ended : s.loops.get? loop = none) : Course s (.proceed job) (s.finish job .done)
  -- Asking and telling.
  | asks {job node} : Course s (.query job node) (s.jobCalls job .asking (.queryNode node))
  | asksInVain {job node} : Course s (.query job node) (s.finish job (.name unknownName))
  | learns {event job wait reply name}
      (hears : s.jobHears? event = some (job, .asking wait, reply)) :
      Course s event (s.finish job (.name name))
  | setsStatus {status detail} :
      Course s (.setStatus status detail)
        ({ s with heartbeat := { s.heartbeat with status, detail } }, [])
  | counts : Course s .countMessage ({ s with handled := s.handled + 1 }, [])
  | abandons {job} : Course s (.abandon job) ({ s with jobs := s.jobs.erase job }, [])
  | reseeds {n} : Course s (.reseed n) ({ s with ids := s.ids.reseed n }, [])
  | issues {job outcome} (ids : IdGenerator) (kind : ∀ address, outcome ≠ .exchange address)
      (notDone : outcome ≠ .done) (node : ids.node = s.ids.node) :
      Course s (.generate job) ({ s with ids }.finish job outcome)
  -- Heartbeats.
  | starts {loop l} (found : s.loops.get? loop = some l) (starting : l.stage = .starting) :
      Course s (.wake loop) (s.pause loop l, [])
  | beats {loop l wake handled} (found : s.loops.get? loop = some l)
      (asleep : l.stage = .sleeping wake) (live : s.live?.isSome)
      (reached : s.directory.isSome) :
      Course s (.wake loop) ({ s with heartbeat := s.nextHeartbeat, handled }.loopCalls loop l
        .beating (.keepAlive s.nextHeartbeat))
  | dies {loop l wake} (found : s.loops.get? loop = some l) (asleep : l.stage = .sleeping wake) :
      Course s (.wake loop) (s.endLoop loop, [])
  | heeds {loop l wake} (found : s.loops.get? loop = some l) (stopped : l.stopped)
      (asleep : l.stage = .sleeping wake) : Course s (.heed loop) (s.endLoop loop, [])
  | pauses {event loop l wait reply failures}
      (hears : s.loopHears? event = some (loop, l, reply)) (beating : l.stage = .beating wait) :
      Course s event (s.pause loop { l with failures }, [])
  | publishes {event loop l wait reply failures} {order : HeartbeatReply}
      (hears : s.loopHears? event = some (loop, l, reply)) (beating : l.stage = .beating wait)
      (answered : judge .keepAlive reply = .ok order) :
      Course s event
        ({ s with commands := s.commands.send order }.pause loop { l with failures }, [])
  | reconnects {event loop l wait reply failures order registration}
      (hears : s.loopHears? event = some (loop, l, reply)) (beating : l.stage = .beating wait)
      (answered : judge .keepAlive reply = .ok order) (ordered : order.command = .reconnect)
      (repeats : s.registration = some registration) :
      Course s event ({ s with phase := .reconnecting }.loopCalls loop { l with failures }
        .reconnecting (.register
          { registration with previousNode := s.identity.elim (-1) (·.node) }))
  | renews {event loop l wait reply identity}
      (hears : s.loopHears? event = some (loop, l, reply))
      (reconnecting : l.stage = .reconnecting wait)
      (granted : judge .register reply = .ok identity) :
      Course s event (s.reconnected loop l (.ok identity), [])
  | staysAsItIs {event loop l wait reply error}
      (hears : s.loopHears? event = some (loop, l, reply))
      (reconnecting : l.stage = .reconnecting wait)
      (failed : judge .register reply = .error error) :
      Course s event (s.reconnected loop l (.error error), [])
  -- Moving.
  | moves {event loop l wait reply failures order identity}
      (hears : s.loopHears? event = some (loop, l, reply)) (beating : l.stage = .beating wait)
      (answered : judge .keepAlive reply = .ok order) (ordered : order.command = .serverChange)
      (safe : s.proposals.isSafe) (live : s.live? = some identity) :
      Course s event
        (s.loopCalls loop { l with failures } (.moving · order) (.unregister identity))
  | movesAtOnce {event loop l wait reply failures order}
      (hears : s.loopHears? event = some (loop, l, reply)) (beating : l.stage = .beating wait)
      (answered : judge .keepAlive reply = .ok order) (ordered : order.command = .serverChange)
      (safe : s.proposals.isSafe) :
      Course s event (s.moved loop { l with failures } order, [])
  | defers {event loop l wait reply failures order}
      (hears : s.loopHears? event = some (loop, l, reply)) (beating : l.stage = .beating wait)
      (answered : judge .keepAlive reply = .ok order) (ordered : order.command = .serverChange)
      (busy : s.proposals.isSafe = false) (unlocked : s.proposals.locked = false) :
      Course s event
        ({ s with
            proposals := s.proposals.lock
            release := some (s.world.now + s.moveWait.millis) }.pause loop { l with failures }, [])
  | leaves {event loop l m wait reply order}
      (hears : s.loopHears? event = some (loop, l, reply)) (moving : l.stage = .moving wait order)
      (found : s.revoke.loops.get? loop = some m) :
      Course s event (s.revoke.moved loop m order, [])
  | releases {due} (pending : s.release = some due) (expired : due ≤ s.world.now) :
      Course s .release ({ s with release := none, proposals := .empty }, [])
  -- Proposals.
  | tracks {side} {advert : Advert side} :
      Course s (.track advert) ({ s with proposals := s.proposals.track advert }, [])
  | retires {id} : Course s (.retire id) ({ s with proposals := s.proposals.retire id }, [])
  | locks : Course s .lock ({ s with proposals := s.proposals.lock }, [])
  | resets : Course s .reset ({ s with proposals := .empty }, [])

/-! ### Every step keeps to the list -/

variable {s : Session} {event : Event}

theorem register_course {job : Nat} {directory : String} {registration : Registration}
    (applies : s.applicant? event = some (job, directory, registration)) :
    Course s event (s.register job directory registration) := by
  cases busy : s.halt.2 with
  | some loop =>
    have turn : s.register job directory registration =
        ({ s.halt.1 with jobs := s.jobs.set job (.clearing loop directory registration) }, []) := by
      rw [register, show s.halt = (s.halt.1, some loop) from Prod.ext rfl busy]
      rfl
    rw [turn]
    exact .clears applies busy
  | none =>
    have turn : s.register job directory registration =
        s.halt.1.apply job directory registration := by
      rw [register, show s.halt = (s.halt.1, none) from Prod.ext rfl busy]
    rw [turn]
    exact .applies applies busy

theorem shutdown_cases (s : Session) (job : Nat) :
    (∃ loop, s.halt.2 = some loop ∧
      s.shutdown job = ({ s.halt.1 with jobs := s.jobs.set job (.stopping loop) }, [])) ∨
    (s.halt.2 = none ∧ s.shutdown job = s.halt.1.finish job .done) := by
  cases busy : s.halt.2 with
  | some loop =>
    refine .inl ⟨loop, rfl, ?_⟩
    rw [shutdown, show s.halt = (s.halt.1, some loop) from Prod.ext rfl busy]
    rfl
  | none =>
    refine .inr ⟨rfl, ?_⟩
    rw [shutdown, show s.halt = (s.halt.1, none) from Prod.ext rfl busy]

/-- What the loop does with the reply to a heartbeat. -/
theorem beaten_course {loop : Nat} {l : Liveness} {wait : Wait} {reply : Option Reply}
    (hears : s.loopHears? event = some (loop, l, reply)) (beating : l.stage = .beating wait) :
    Course s event (s.beaten loop l (judge .keepAlive reply)) := by
  cases answered : judge .keepAlive reply with
  | error e => exact .pauses hears beating
  | ok order =>
    simp only [beaten, replied]
    cases ordered : order.command with
    | nothing => exact .pauses hears beating
    | reconnect =>
      simp only [reconnect]
      split
      next registration repeats =>
        split
        · exact .reconnects hears beating answered ordered repeats
        · exact .pauses hears beating
      · exact .pauses hears beating
    | serverChange =>
      simp only [move]
      split
      -- With nothing in flight the node leaves, and tells the directory if it can.
      next safe =>
        split
        next identity live =>
          split
          · exact .moves hears beating answered ordered safe live
          · exact .movesAtOnce hears beating answered ordered safe
        · exact .movesAtOnce hears beating answered ordered safe
      -- A lock that is already held comes with a release of its own.
      next busy =>
        split
        · exact .pauses hears beating
        next unlocked =>
          exact .defers hears beating answered ordered (by simpa using busy) (by simpa using unlocked)
    | providerDisconnect =>
      simp only
      split
      · exact .publishes hears beating answered
      · exact .pauses hears beating

theorem get?_loops_revoke {loop : Nat} {l : Liveness} (found : s.loops.get? loop = some l) :
    ∃ m, s.revoke.loops.get? loop = some m := by
  simp only [revoke, stopCurrent]
  cases s.current with
  | none => exact ⟨l, found⟩
  | some current =>
    simp only [Option.elim, Table.get?_modify, found]
    split
    · exact ⟨_, rfl⟩
    · exact ⟨l, rfl⟩

/-- What a loop does when its call has come to its end. -/
theorem loopAnswered_course {loop : Nat} {l : Liveness} {reply : Option Reply}
    (hears : s.loopHears? event = some (loop, l, reply)) :
    Course s event (s.loopAnswered loop l reply) := by
  obtain ⟨found, wait, waits, -⟩ := loopHears?_spec hears
  simp only [loopAnswered]
  cases stage : l.stage with
  -- A loop at these stages waits for no call.
  | starting => simp [stage, Stage.wait?] at waits
  | sleeping wake => simp [stage, Stage.wait?] at waits
  | beating _ => exact beaten_course hears stage
  | reconnecting _ =>
    cases result : judge .register reply with
    | ok identity => exact .renews hears stage result
    | error e => exact .staysAsItIs hears stage result
  | moving _ order =>
    obtain ⟨m, renamed⟩ := get?_loops_revoke found
    simp only [renamed, Option.getD_some]
    exact .leaves hears stage renamed

/-- What a job does when its call has come to its end. -/
theorem jobAnswered_course {job : Nat} {work : Work} {reply : Option Reply}
    (hears : s.jobHears? event = some (job, work, reply)) (waits : work.wait?.isSome) :
    Course s event (s.jobAnswered job work reply) := by
  cases work with
  -- These jobs wait for no call.
  | dialing _ _ => simp [Work.wait?] at waits
  | clearing _ _ _ => simp [Work.wait?] at waits
  | stopping _ => simp [Work.wait?] at waits
  | registering wait directory registration =>
    simp only [jobAnswered, registered]
    split
    next identity granted =>
      split
      next accepted => exact .adopts hears granted accepted
      next refused =>
        refine .forgets hears fun other answered => ?_
        obtain rfl := Except.ok.inj (granted.symm.trans answered)
        simpa using refused
    next failed =>
      refine .forgets hears fun other answered => ?_
      rw [failed] at answered
      cases answered
  | revoking wait =>
    obtain ⟨loop, busy, turn⟩ | ⟨idle, turn⟩ := s.revoke.shutdown_cases job
    · simp only [jobAnswered, revoked, turn]
      exact .revokes hears busy
    · simp only [jobAnswered, revoked, turn]
      exact .revokesAtLast hears idle
  | asking wait =>
    simp only [jobAnswered, queried]
    split
    · exact .learns hears
    · exact .learns hears

theorem answer_course {call : Nat} {reply : Option Reply}
    (heard : s.heard? event = some (call, reply)) (may : event.mayMiss) :
    Course s event (s.answer call reply) := by
  simp only [answer]
  split
  next loop l waiting => exact loopAnswered_course (by simp [loopHears?, heard, waiting])
  next free =>
    split
    next job work waiting =>
      obtain ⟨-, wait, waits, -⟩ := jobWaiting?_spec waiting
      exact jobAnswered_course (by simp [jobHears?, heard, free, waiting]) (by simp [waits])
    next nobody =>
      have noLoop : s.loopHears? event = none := by simp [loopHears?, heard, free]
      have noJob : s.jobHears? event = none := by simp [jobHears?, heard, nobody, free]
      exact .misses may noLoop noJob

theorem wake_course {loop : Nat} : Course s (.wake loop) (s.wake loop) := by
  simp only [wake]
  split
  next l found =>
    split
    next starting => exact .starts found starting
    next wake asleep =>
      split
      · simp only [beat]
        split
        next ready =>
          rw [Bool.and_eq_true] at ready
          exact .beats found asleep ready.1 ready.2
        next => exact .dies found asleep
      · exact .misses rfl rfl rfl
    next => exact .misses rfl rfl rfl
  next => exact .misses rfl rfl rfl

theorem heed_course {loop : Nat} : Course s (.heed loop) (s.heed loop, []) := by
  simp only [heed]
  split
  next l found =>
    split
    next stopped asleep => exact .heeds found stopped asleep
    next => exact .misses rfl rfl rfl
  next => exact .misses rfl rfl rfl

theorem proceed_course {job : Nat} : Course s (.proceed job) (s.proceed job) := by
  simp only [proceed]
  split
  next loop directory registration clearing =>
    by_cases alive : s.loops.contains loop
    · rw [if_pos alive]
      exact .misses rfl rfl rfl
    · rw [if_neg alive]
      exact .cleared clearing (by simpa [Table.contains] using alive)
  next loop stopping =>
    by_cases alive : s.loops.contains loop
    · rw [if_pos alive]
      exact .misses rfl rfl rfl
    · rw [if_neg alive]
      exact .stopped stopping (by simpa [Table.contains] using alive)
  next => exact .misses rfl rfl rfl

theorem dialed_course {job : Nat} {result : Except WireError Unit} :
    Course s (.dialed job result) (s.dialed job result) := by
  simp only [dialed]
  split
  next dialing => exact register_course (by simp [applicant?, dialing])
  next dialing => exact .undialed dialing
  next => exact .misses rfl rfl rfl

/-- Every step is one of the list. -/
theorem step_course (s : Session) (event : Event) : Course s event (s.step event) := by
  cases event with
  | dial job address registration => exact .dials
  | dialed job result => exact dialed_course
  | register job directory registration => exact register_course rfl
  | unregister job =>
    simp only [step, unregister]
    split
    next identity live =>
      split
      · exact .unregisters live
      · exact .unregistersInVain
    next => exact .unregistersInVain
  | shutdown job =>
    obtain ⟨loop, busy, turn⟩ | ⟨idle, turn⟩ := s.shutdown_cases job
    · simp only [step, turn]
      exact .stops busy
    · simp only [step, turn]
      exact .stopsAtOnce idle
  | query job node =>
    simp only [step, query]
    split
    · exact .asks
    · exact .asksInVain
  | setStatus status detail => exact .setsStatus
  | countMessage => exact .counts
  | answer call reply => exact answer_course rfl rfl
  | timeout call =>
    simp only [step]
    split
    next late => exact answer_course (by simp [heard?, late]) rfl
    next early =>
      have unheard : s.heard? (.timeout call) = none := by simp [heard?, early]
      exact .misses rfl (by simp [loopHears?, unheard]) (by simp [jobHears?, unheard])
  | wake loop => exact wake_course
  | heed loop => exact heed_course
  | proceed job => exact proceed_course
  | release =>
    simp only [step, releaseLock]
    split
    next due pending =>
      split
      next expired => exact .releases pending expired
      next => exact .misses rfl rfl rfl
    next => exact .misses rfl rfl rfl
  | abandon job => exact .abandons
  | elapse millis =>
    simp only [step, elapse]
    split
    · exact .outside _ rfl
    -- Time does not pass beyond a deadline that is still to be dealt with.
    · exact .outside s.world rfl
  | setClock clock => exact .outside _ rfl
  | setRandom random => exact .outside _ rfl
  | setLoad cpu memory => exact .outside _ rfl
  | reseed n => exact .reseeds
  | generate job =>
    simp only [step, generate]
    split
    next issued => exact .issues _ (by simp) (by simp) (IdGenerator.node_of_generate issued)
    -- Without a node number the generator stays as it is.
    next => exact .issues s.ids (by simp) (by simp) rfl
  | track advert => exact .tracks
  | retire id => exact .retires
  | lock => exact .locks
  | reset => exact .resets

/-- Only a registration that takes an identity on returns with an exchange. -/
theorem adopts_of_returned {turn : Turn} (course : Course s event turn) {job : Nat}
    {address : String} (returned : .finish job (.exchange address) ∈ turn.2) :
    ∃ wait directory registration reply identity,
      s.jobHears? event = some (job, .registering wait directory registration, reply) ∧
      turn = (s.adopt directory registration identity).startLoop.finish job
        (.exchange identity.exchangeAddress) := by
  cases course with
  | adopts hears =>
    cases List.mem_singleton.mp returned
    exact ⟨_, _, _, _, _, hears, rfl⟩
  | issues ids kind =>
    obtain ⟨-, same⟩ := Effect.finish.inj (List.mem_singleton.mp returned)
    exact absurd same.symm (kind address)
  | _ => simp [finish, jobCalls, loopCalls, apply] at returned

/-! ### The beginning of a run -/

/-- A world in which nothing happens. -/
def stillWorld : Surroundings := ⟨0, 0, 0, 0, 0⟩

/-- The directory grants a number, and asks for a heartbeat every five seconds. -/
def grant (node : Int32) (secret : UInt64) : Reply :=
  .ok (.identity ⟨node, secret, "127.0.0.1:10000", 5⟩)

/-- The directory answers a heartbeat with a command. -/
def command (order : DirectoryCommand) : Reply := .ok (.heartbeat ⟨true, order, ""⟩)

/-- A node registers as number seven, and its first heartbeat is under way as call one. -/
def firstHeartbeat : List Event :=
  [.register 0 "127.0.0.1:9000" (.ofNode "sensor-1" [10] none), .answer 0 (grant 7 1007), .wake 0,
    .elapse 5000, .wake 0]

end ExchangeNode.Session
