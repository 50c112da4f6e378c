import ExchangeNode.Proofs.Session.Solitude

/-!
# From one heartbeat to the next

A session that is left to its loop registers again only when the directory has answered a heartbeat
with the order to do so, and then once before the next heartbeat. It repeats what the user has
registered, under the number that it holds at that moment. The next heartbeat speaks for the new
identity, or for the old one if the directory does not grant any.
-/

namespace ExchangeNode.Session

/-- What the user has registered as, once a step has been taken: what the registration that is
answered in it asks for, or what it was before. -/
def enlistedAfter (s : Session) (event : Event) (info : Option Registration) :
    Option Registration :=
  match s.jobHears? event with
  | some (_, .registering _ _ registration, _) => some registration
  | _ => info

/-- What the registration of the user that was answered last in a run has asked for. -/
def enlisted (s : Session) (info : Option Registration) : List Event → Option Registration
  | [] => info
  | event :: rest => (s.step event).1.enlisted (s.enlistedAfter event info) rest

/-- The order to register again, whether the heartbeat itself was accepted or not. -/
def Summons (reply : Option Reply) : Prop :=
  ∃ order, judge .keepAlive reply = .ok order ∧ order.command = .reconnect

/-- A loop hears of the end of a call that it waits for. -/
def Hears (s : Session) (event : Event) (call : Nat) (reply : Option Reply) : Prop :=
  ∃ k l wait, s.loopHears? event = some (k, l, reply) ∧ l.stage.wait? = some wait ∧
    wait.call = call

/-- Two heartbeats with none between them, and no call of the user. -/
structure Consecutive (s : Session) (first : Event) (between : List Event) (next : Event)
    (call : Nat) (earlier later : Heartbeat) : Prop where
  sends : (s.step first).2 = [.call call (.keepAlive earlier)]
  silent : heartbeats ((s.step first).1.run between).2 = []
  follows : heartbeats (((s.step first).1.run between).1.step next).2 = [later]
  calm : ∀ event ∈ between, event.intervenes = false

variable {s t : Session} {event : Event} {turn : Turn} {k : Nat} {l : Liveness}

/-! ### What is repeated -/

/-- A session knows what to repeat just when it knows a directory. -/
structure Enlists (info : Option Registration) (s : Session) : Prop where
  paired : s.directory = none ↔ s.registration = none
  repeats : ∀ registration, s.registration = some registration → info = some registration

theorem enlists_course {info : Option Registration} (enlists : Enlists info s)
    (course : Course s event turn) : Enlists (s.enlistedAfter event info) turn.1 := by
  -- Where no registration of the user is answered, nothing changes.
  have same : s.enlistedAfter event info = info → turn.1.directory = s.directory →
      turn.1.registration = s.registration → Enlists (s.enlistedAfter event info) turn.1 := by
    intro unchanged directory registration
    rw [unchanged]
    exact ⟨directory ▸ registration ▸ enlists.paired, registration ▸ enlists.repeats⟩
  cases course with
  | adopts hears =>
    refine ⟨iff_of_false nofun nofun, ?_⟩
    rintro registration ⟨⟩
    simp only [enlistedAfter, hears]
  | forgets => exact ⟨iff_of_true rfl rfl, nofun⟩
  | misses _ _ noJob => exact same (by simp only [enlistedAfter, noJob]) rfl rfl
  | outside world isOutside =>
    cases event with
    | elapse | setClock | setRandom | setLoad => exact same rfl rfl rfl
    | _ => cases isOutside
  | clears applies | applies applies =>
    cases event with
    | register | dialed => exact same rfl rfl rfl
    | _ => cases applies
  | revokes hears | revokesAtLast hears | learns hears =>
    exact same (by simp only [enlistedAfter, hears]) rfl rfl
  | pauses hears | publishes hears | reconnects hears | renews hears | staysAsItIs hears
  | moves hears | movesAtOnce hears | defers hears | leaves hears =>
    exact same (by simp only [enlistedAfter, jobHears?_of_loopHears? hears]) rfl rfl
  | _ => exact same rfl rfl rfl

theorem Enlists.exists_registration {info : Option Registration} (enlists : Enlists info s)
    (reached : s.directory.isSome) : ∃ registration, s.registration = some registration := by
  refine Option.ne_none_iff_exists'.mp fun unknown => ?_
  rw [enlists.paired.mpr unknown] at reached
  cases reached

theorem enlists_run {info : Option Registration} (enlists : Enlists info s) (events : List Event) :
    Enlists (s.enlisted info events) (s.run events).1 := by
  induction events generalizing s info with
  | nil => exact enlists
  | cons event rest ih => exact ih (enlists_course enlists (step_course s event))

theorem enlists_fresh (options : KeepAliveOptions) (world : Surroundings) :
    Enlists none (fresh options world) :=
  ⟨iff_of_true rfl rfl, nofun⟩

/-! ### The end of a round -/

/-- The loop pauses, and the identity stays. -/
def Pauses (s : Session) (k : Nat) (turn : Turn) : Prop :=
  ∃ t m, turn = (t.pause k m, []) ∧ t.loops = s.loops ∧ Keeps True s t

/-- Without the order to register again, a loop that hears the answer to its heartbeat pauses or
gives the identity up. -/
theorem pauses_or_moves {wait : Wait} {reply : Option Reply}
    (hears : s.loopHears? event = some (k, l, reply)) (beating : l.stage = .beating wait)
    (unasked : ¬ Summons reply) :
    Pauses s k (s.step event) ∨
      ∃ m order identity, s.step event = s.loopCalls k m (.moving · order) (.unregister identity) := by
  have same : Keeps True s s := keeps_refl True s
  rw [step_of_loopHears? hears]
  simp only [loopAnswered, beating]
  cases answered : judge .keepAlive reply with
  | error e => exact .inl ⟨s, _, rfl, rfl, same⟩
  | ok order =>
    simp only [beaten, replied]
    cases ordered : order.command with
    | nothing => exact .inl ⟨s, _, rfl, rfl, same⟩
    | reconnect => exact absurd ⟨order, answered, ordered⟩ unasked
    | serverChange =>
      simp only [move]
      split
      · split
        · split
          · exact .inr ⟨_, _, _, rfl⟩
          · exact .inl ⟨_, _, rfl, rfl, ⟨rfl, rfl, rfl, fun _ => rfl⟩⟩
        · exact .inl ⟨_, _, rfl, rfl, ⟨rfl, rfl, rfl, fun _ => rfl⟩⟩
      · split
        · exact .inl ⟨s, _, rfl, rfl, same⟩
        · exact .inl ⟨_, _, rfl, rfl, ⟨rfl, rfl, rfl, fun _ => rfl⟩⟩
    | providerDisconnect =>
      simp only
      split
      · exact .inl ⟨_, _, rfl, rfl, ⟨rfl, rfl, rfl, fun _ => rfl⟩⟩
      · exact .inl ⟨s, _, rfl, rfl, same⟩

/-- What the next heartbeat says, and what a session holds when it is sent, if from `s` on it keeps
what it holds. -/
structure Speaks (s t : Session) (own : Prop) (identity : Identity) (later : Heartbeat) : Prop where
  live : identity.secret ≠ 0
  node : later.node = identity.node
  secret : later.secret = identity.secret
  keeps : Keeps own s t

theorem named_of_run (named : Named s) (events : List Event) : Named (s.run events).1 :=
  run_invariant Named named_step named events

/-- From the end of a round to the next heartbeat. -/
theorem speaks_of_rests {rest : List Event} {next : Event} {later : Heartbeat} (named : Named s)
    (lone : Lone s) (rests : Rests s) (calm : ∀ event ∈ rest, event.intervenes = false)
    (silent : heartbeats (s.run rest).2 = [])
    (follows : heartbeats ((s.run rest).1.step next).2 = [later]) :
    registrations (s.run rest).2 = [] ∧
      ∃ identity, s.identity = some identity ∧
        Speaks s (s.run rest).1 (∀ event ∈ rest, event.reseeds = false) identity later := by
  obtain ⟨keeps, modest⟩ := rests_run lone rests calm silent
  refine ⟨modest, ?_⟩
  obtain none | ⟨due, live, -⟩ := heartbeats_course (step_course (s.run rest).1 next)
  · rw [none] at follows
    cases follows
  · rw [due] at follows
    cases follows
    obtain ⟨secret, identity, held, node, same⟩ :=
      nextHeartbeat_of_named (named_of_run named rest) live
    exact ⟨identity, keeps.identity.symm.trans held, same ▸ secret, node, same, keeps⟩

theorem run_split (s : Session) (first : List Event) (event : Event) (rest : List Event) :
    (s.run (first ++ event :: rest)).1 = (((s.run first).1.step event).1.run rest).1 := by
  rw [run_append, run_cons]

theorem silent_after {first rest : List Event}
    (silent : heartbeats (s.run (first ++ event :: rest)).2 = []) :
    heartbeats (((s.run first).1.step event).1.run rest).2 = [] := by
  rw [run_append, run_cons, heartbeats_append, heartbeats_append] at silent
  exact (List.append_eq_nil_iff.mp (List.append_eq_nil_iff.mp silent).2).2

theorem rests_of_turn {m : Liveness} (lone : Lone s) (found : s.loops.get? k = some l)
    (fewer : ∀ j, t.Alive j → s.Alive j) : Rests (t.pause k m) :=
  rests_of_pause fun j left => lone.eq_of_alive (fewer j left) (alive_of_get? found)

theorem alive_of_revoke {j : Nat} (left : s.revoke.Alive j) : s.Alive j := by
  obtain ⟨l, found⟩ := Option.isSome_iff_exists.mp left
  exact alive_of_stays (stays_of_stopCurrent found).1

/-- A loop that gives the identity up sends no heartbeat any more. -/
theorem no_heartbeat_of_moving {rest : List Event} {next : Event} {wait : Wait}
    {order : HeartbeatReply} (named : Named s) (lone : Lone s) (found : s.loops.get? k = some l)
    (moving : l.stage = .moving wait order) (calm : ∀ event ∈ rest, event.intervenes = false)
    (silent : heartbeats (s.run rest).2 = []) :
    heartbeats ((s.run rest).1.step next).2 = [] := by
  obtain none | ⟨due, -⟩ := heartbeats_course (step_course (s.run rest).1 next)
  · exact none
  -- A heartbeat would come after the answer that the loop waits for.
  · have sends : heartbeats ((s.run rest).1.step next).2 ≠ [] := by simp [due]
    obtain ⟨heard, answer, later, reply, rfl, hears, alone, -⟩ :=
      exists_answer lone found (by rw [moving]; rfl) calm sends
    have turn := step_of_loopHears? hears
    simp only [loopAnswered, moving] at turn
    have waiting := (loopHears?_spec hears).1
    have calmLater : ∀ event ∈ later, event.intervenes = false :=
      fun event member => calm event (List.mem_append_right _ (.tail _ member))
    -- With the answer the identity is gone, and stays so.
    have after := (lone_course alone (calm answer (by simp))).2
    have rests : Rests ((s.run heard).1.step answer).1 := by
      rw [turn]
      exact rests_of_turn alone waiting fun j left => alive_of_revoke left
    rw [run_split] at due
    obtain ⟨-, identity, held, speaks⟩ := speaks_of_rests
      (named_step _ answer (named_of_run named heard)) after rests calmLater (silent_after silent) due
    rw [turn] at held
    obtain ⟨before, -, rfl⟩ := Option.map_eq_some_iff.mp held
    exact absurd rfl speaks.live

/-! ### From the answer to the next heartbeat -/

theorem step_of_reconnecting {loop : Nat} {m : Liveness} {reply : Option Reply}
    (hears : s.loopHears? event = some (loop, m, reply)) {wait : Wait}
    (reconnecting : m.stage = .reconnecting wait) :
    s.step event = (s.reconnected loop m (judge .register reply), []) := by
  rw [step_of_loopHears? hears]
  simp only [loopAnswered, reconnecting]

theorem rests_of_reconnected {m : Liveness} (lone : Lone s) (found : s.loops.get? k = some l)
    (result : Except NodeError Identity) : Rests (s.reconnected k m result) := by
  cases result with
  | ok new => exact rests_of_turn lone found fun _ left => left
  | error e => exact rests_of_turn lone found fun _ left => left

/-- The answer asks for nothing: the loop makes no call before its next heartbeat. -/
theorem unasked_interval {answer next : Event} {rest : List Event} {wait : Wait}
    {reply : Option Reply} {later : Heartbeat} (named : Named s) (lone : Lone s)
    (hears : s.loopHears? answer = some (k, l, reply)) (beating : l.stage = .beating wait)
    (unasked : ¬ Summons reply) (calm : ∀ event ∈ answer :: rest, event.intervenes = false)
    (silent : heartbeats ((s.step answer).1.run rest).2 = [])
    (follows : heartbeats (((s.step answer).1.run rest).1.step next).2 = [later]) :
    registrations (s.run (answer :: rest)).2 = [] ∧
      ∃ identity, s.identity = some identity ∧ later.node = identity.node ∧
        later.secret = identity.secret := by
  have waiting := (loopHears?_spec hears).1
  have after := (lone_course lone (calm answer List.mem_cons_self)).2
  have calmLater : ∀ event ∈ rest, event.intervenes = false :=
    fun event member => calm event (.tail _ member)
  have namedAfter := named_step s answer named
  rw [run_cons, registrations_append]
  obtain ⟨t, m, turn, loops, keeps⟩ | ⟨m, order, identity, turn⟩ :=
    pauses_or_moves hears beating unasked
  -- The round ends here.
  · have rests : Rests (s.step answer).1 := by
      rw [turn]
      exact rests_of_turn lone waiting fun j left => by rwa [Alive, loops] at left
    obtain ⟨modest, identity, held, speaks⟩ :=
      speaks_of_rests namedAfter after rests calmLater silent follows
    rw [modest, turn]
    rw [turn] at held
    exact ⟨rfl, identity, keeps.identity.symm.trans held, speaks.node, speaks.secret⟩
  -- The identity is given up, and the loop ends.
  · have moving : (s.step answer).1.loops.get? k =
        some { m with stage := .moving s.newWait order } := by
      rw [turn]
      exact (Table.get?_set ..).trans (if_pos rfl)
    rw [no_heartbeat_of_moving namedAfter after moving rfl calmLater silent] at follows
    cases follows

/-- The end of the new registration is heard: no other is made before the next heartbeat. -/
theorem reconnected_interval {outcome next : Event} {rest : List Event} {wait : Wait}
    {reply : Option Reply} {later : Heartbeat} (named : Named s) (lone : Lone s)
    (hears : s.loopHears? outcome = some (k, l, reply)) (reconnecting : l.stage = .reconnecting wait)
    (calm : ∀ event ∈ outcome :: rest, event.intervenes = false)
    (silent : heartbeats ((s.step outcome).1.run rest).2 = [])
    (follows : heartbeats (((s.step outcome).1.run rest).1.step next).2 = [later]) :
    registrations (s.run (outcome :: rest)).2 = [] ∧
      (∀ new, judge .register reply = .ok new →
        new.secret ≠ 0 ∧ later.node = new.node ∧ later.secret = new.secret) ∧
      ∀ error, judge .register reply = .error error →
        ∃ identity, s.identity = some identity ∧
          Speaks s (s.run (outcome :: rest)).1
            (∀ event ∈ outcome :: rest, event.reseeds = false) identity later := by
  have done := step_of_reconnecting hears reconnecting
  have after := (lone_course lone (calm outcome List.mem_cons_self)).2
  have rests : Rests (s.step outcome).1 := by
    rw [done]
    exact rests_of_reconnected lone (loopHears?_spec hears).1 _
  obtain ⟨modest, identity, held, speaks⟩ := speaks_of_rests (named_step s outcome named) after rests
    (fun event member => calm event (.tail _ member)) silent follows
  refine ⟨?_, ?_, ?_⟩
  · rw [run_cons, registrations_append, modest, done]
    rfl
  · intro new granted
    rw [done, granted] at held
    cases held
    exact ⟨speaks.live, speaks.node, speaks.secret⟩
  · intro error failed
    have same : Keeps (outcome.reseeds = false) s (s.step outcome).1 := by
      rw [done, failed]
      exact ⟨rfl, rfl, rfl, fun _ => rfl⟩
    exact ⟨identity, same.identity.symm.trans held, speaks.live, speaks.node, speaks.secret,
      same.cons speaks.keeps⟩

/-- The answer asks for a new registration: the loop makes that call, and nothing else before it has
heard the end of it. -/
theorem renewed_interval {answer next : Event} {rest : List Event} {wait : Wait}
    {reply : Option Reply} {later : Heartbeat} {info : Registration} (named : Named s)
    (lone : Lone s) (hears : s.loopHears? answer = some (k, l, reply))
    (beating : l.stage = .beating wait) (summons : Summons reply)
    (repeats : s.registration = some info) (reached : s.directory.isSome)
    (calm : ∀ event ∈ answer :: rest, event.intervenes = false)
    (silent : heartbeats ((s.step answer).1.run rest).2 = [])
    (follows : heartbeats (((s.step answer).1.run rest).1.step next).2 = [later]) :
    registrations (s.run (answer :: rest)).2 =
        [{ info with previousNode := s.identity.elim (-1) (·.node) }] ∧
      ∃ waiting outcome finished result, rest = waiting ++ outcome :: finished ∧
        (s.step answer).2 = [.call s.nextCall
          (.register { info with previousNode := s.identity.elim (-1) (·.node) })] ∧
        Hears ((s.step answer).1.run waiting).1 outcome s.nextCall result ∧
        (∀ new, judge .register result = .ok new →
          new.secret ≠ 0 ∧ later.node = new.node ∧ later.secret = new.secret) ∧
        ∀ error, judge .register result = .error error →
          ∃ identity, s.identity = some identity ∧
            Speaks s (s.run (answer :: rest)).1
              (∀ event ∈ answer :: rest, event.reseeds = false) identity later := by
  obtain ⟨order, answered, ordered⟩ := summons
  have turn := step_of_reconnect hears beating answered ordered repeats reached
  have after := (lone_course lone (calm answer List.mem_cons_self)).2
  have calmLater : ∀ event ∈ rest, event.intervenes = false :=
    fun event member => calm event (.tail _ member)
  have keeps : Keeps (answer.reseeds = false) s (s.step answer).1 := by
    rw [turn]
    exact ⟨rfl, rfl, rfl, fun _ => rfl⟩
  have effects : (s.step answer).2 = [.call s.nextCall
      (.register { info with previousNode := s.identity.elim (-1) (·.node) })] := by
    rw [turn]
    rfl
  -- The loop waits, and hears the end of its call.
  have asking : (s.step answer).1.loops.get? k = some
      { l with
        failures := if order.ok then 0 else oneMore l.failures
        stage := .reconnecting s.newWait } := by
    rw [turn]
    exact (Table.get?_set ..).trans (if_pos rfl)
  obtain ⟨waiting, outcome, finished, result, rfl, ends, alone, kept, quiet⟩ :=
    exists_answer after asking rfl calmLater (by rw [follows]; exact nofun)
  have namedLater := named_of_run (named_step s answer named) waiting
  rw [run_split] at follows
  obtain ⟨modest, succeeds, fails⟩ := reconnected_interval namedLater alone ends rfl
    (fun event member => calmLater event (List.mem_append_right _ member)) (silent_after silent)
    follows
  refine ⟨?_, waiting, outcome, finished, result, rfl, effects, ⟨_, _, _, ends, rfl, rfl⟩, succeeds,
    ?_⟩
  · rw [run_cons, registrations_append, effects, run_append, registrations_append, quiet, modest]
    rfl
  · intro error failed
    obtain ⟨identity, held, speaks⟩ := fails error failed
    have before := keeps.cons kept
    refine ⟨identity, before.identity.symm.trans held, speaks.live, speaks.node, speaks.secret, ?_⟩
    rw [run_cons, run_append]
    exact before.append speaks.keeps

/-! ### All runs -/

/-- The step that sends a heartbeat: a loop waits for the answer, and what is held stays. -/
theorem sends_heartbeat (course : Course s event turn) {call : Nat} {heartbeat : Heartbeat}
    (sends : turn.2 = [.call call (.keepAlive heartbeat)]) :
    event.intervenes = false ∧ s.live?.isSome ∧ s.directory.isSome ∧ heartbeat = s.nextHeartbeat ∧
      Keeps True s turn.1 ∧ ∃ k l wait, turn.1.loops.get? k = some l ∧ l.stage = .beating wait ∧
        wait.call = call := by
  cases course with
  | @beats loop l wake handled found asleep live reached =>
    cases sends
    have found : (s.loops.set loop { l with stage := .beating s.newWait }).get? loop =
        some { l with stage := .beating s.newWait } := (Table.get?_set ..).trans (if_pos rfl)
    exact ⟨rfl, live, reached, rfl, ⟨rfl, rfl, rfl, fun _ => rfl⟩, loop, _, s.newWait, found, rfl,
      rfl⟩
  | _ => cases sends

/-- In a session that is left to its loop, and between any two heartbeats of a run without calls of
the user that follow one another: the loop hears the answer to the first. Without the order to
register again it asks for no registration, and the second heartbeat speaks for the same identity.
With it, it asks for one, which repeats what the user has registered under the number held at that
moment, and hears the end of that. If it is granted an identity the second heartbeat speaks for that.
Otherwise the second heartbeat speaks for the same identity as the first, and the session holds what
it held then, but for what its user does to the generator of ids. -/
theorem renewal_between_heartbeats (options : KeepAliveOptions) (world : Surroundings)
    (past before : List Event) (lone : Lone ((fresh options world).run past).1)
    (calm : ∀ event ∈ before, event.intervenes = false) {s : Session}
    (reached : ((fresh options world).run (past ++ before)).1 = s) {first next : Event}
    {between : List Event} {call : Nat} {earlier later : Heartbeat}
    (consecutive : Consecutive s first between next call earlier later) :
    ∃ heard answer rest reply, between = heard ++ answer :: rest ∧
      Hears ((s.step first).1.run heard).1 answer call reply ∧
      (¬ Summons reply →
        registrations ((s.step first).1.run between).2 = [] ∧
        later.node = earlier.node ∧ later.secret = earlier.secret) ∧
      (Summons reply → ∃ info identity,
        (fresh options world).enlisted none (past ++ before) = some info ∧
        ((s.step first).1.run heard).1.identity = some identity ∧
        registrations ((s.step first).1.run between).2 =
          [{ info with previousNode := identity.node }] ∧
        ∃ waiting outcome finished asked result, rest = waiting ++ outcome :: finished ∧
          (((s.step first).1.run heard).1.step answer).2 =
            [.call asked (.register { info with previousNode := identity.node })] ∧
          Hears ((s.step first).1.run (heard ++ answer :: waiting)).1 outcome asked result ∧
          (∀ new, judge .register result = .ok new →
            new.secret ≠ 0 ∧ later.node = new.node ∧ later.secret = new.secret) ∧
          (∀ error, judge .register result = .error error →
            later.node = earlier.node ∧ later.secret = earlier.secret ∧
            Keeps (∀ event ∈ between, event.reseeds = false) s
              ((s.step first).1.run between).1)) := by
  have start : Lone s := by
    rw [← reached, run_append]
    exact lone_run lone calm
  have named : Named s := reached ▸ named_run options world _
  have enlists : Enlists ((fresh options world).enlisted none (past ++ before)) s :=
    reached ▸ enlists_run (enlists_fresh options world) (past ++ before)
  obtain ⟨mild, live, hasDirectory, rfl, sent, k, l, wait, found, beating, rfl⟩ :=
    sends_heartbeat (step_course s first) consecutive.sends
  obtain ⟨-, identity, held, node, secret⟩ := nextHeartbeat_of_named named live
  -- The loop waits until it hears the answer.
  obtain ⟨heard, answer, rest, reply, rfl, hears, alone, kept, quiet⟩ :=
    exists_answer (lone_course start mild).2 found (by rw [beating]; rfl) consecutive.calm
      (by rw [consecutive.follows]; exact nofun)
  have after := run_split (s.step first).1 heard answer rest
  have follows := consecutive.follows
  have silent := silent_after consecutive.silent
  have namedAfter := named_of_run (named_step s first named) heard
  have calmAfter : ∀ event ∈ answer :: rest, event.intervenes = false :=
    fun event member => consecutive.calm event (List.mem_append_right _ member)
  have keeps : Keeps (∀ event ∈ heard, event.reseeds = false) s ((s.step first).1.run heard).1 :=
    (sent.weaken fun _ => trivial).trans kept
  have whole : registrations ((s.step first).1.run (heard ++ answer :: rest)).2 =
      registrations (((s.step first).1.run heard).1.run (answer :: rest)).2 := by
    rw [run_append, registrations_append, quiet, List.nil_append]
  rw [after] at follows
  refine ⟨heard, answer, rest, reply, rfl, ⟨k, l, wait, hears, by rw [beating]; rfl, rfl⟩, ?_, ?_⟩
  · intro unasked
    obtain ⟨modest, same, isHeld, sameNode, sameSecret⟩ :=
      unasked_interval namedAfter alone hears beating unasked calmAfter silent follows
    have unchanged := isHeld.symm.trans (keeps.identity.trans held)
    cases unchanged
    exact ⟨whole.trans modest, sameNode.trans node.symm, sameSecret.trans secret.symm⟩
  · intro summons
    obtain ⟨info, repeats⟩ := enlists.exists_registration hasDirectory
    obtain ⟨asked, waiting, outcome, finished, result, rfl, effects, ends, succeeds, fails⟩ :=
      renewed_interval namedAfter alone hears beating summons (keeps.registration.trans repeats)
        (keeps.directory ▸ hasDirectory) calmAfter silent follows
    have holds := keeps.identity.trans held
    rw [holds] at asked effects
    refine ⟨info, identity, enlists.repeats info repeats, holds, whole.trans asked, waiting,
      outcome, finished, _, result, rfl, effects, ?_, succeeds, ?_⟩
    · rw [run_split]
      exact ends
    · intro error failed
      obtain ⟨same, isHeld, speaks⟩ := fails error failed
      cases isHeld.symm.trans holds
      refine ⟨speaks.node.trans node.symm, speaks.secret.trans secret.symm, ?_⟩
      rw [run_append]
      exact keeps.append speaks.keeps

/-- A node has registered as number seven, and its loop has slept until the first heartbeat is due. -/
def dueHeartbeat : List Event :=
  [.register 0 "127.0.0.1:9000" (.ofNode "sensor-1" [10] none), .answer 0 (grant 7 1007), .wake 0,
    .elapse 5000]

/-- The directory asks for a new registration and grants number eight, and the loop sleeps again. -/
def untilSecond : List Event :=
  [.answer 1 (command .reconnect), .answer 2 (grant 8 1008), .elapse 5000]

theorem renewal_between_heartbeats_untilSecond :
    Lone ((fresh .standard stillWorld).run dueHeartbeat).1 ∧
      Consecutive ((fresh .standard stillWorld).run dueHeartbeat).1 (.wake 0) untilSecond (.wake 0)
        1 ⟨7, 1007, 1, 0, "", none⟩ ⟨8, 1008, 2, 0, "", none⟩ ∧
      ∃ heard answer rest reply, untilSecond = heard ++ answer :: rest ∧
        Hears ((((fresh .standard stillWorld).run dueHeartbeat).1.step (.wake 0)).1.run heard).1
          answer 1 reply ∧
        (Summons reply → ∃ info identity,
          (fresh .standard stillWorld).enlisted none dueHeartbeat = some info ∧
          ((((fresh .standard stillWorld).run dueHeartbeat).1.step (.wake 0)).1.run
            heard).1.identity = some identity ∧
          registrations ((((fresh .standard stillWorld).run dueHeartbeat).1.step (.wake 0)).1.run
            untilSecond).2 = [{ info with previousNode := identity.node }]) := by
  have proper : Throughout Proper (fresh .standard stillWorld) dueHeartbeat := by decide
  have settled : Settled ((fresh .standard stillWorld).run dueHeartbeat).1 :=
    throughout_invariant Settled (fun _ _ proper settled => settled_step settled proper)
      (settled_fresh _ _) proper
  have idle : ((fresh .standard stillWorld).run dueHeartbeat).1.jobs = .empty := by decide
  have lone : Lone ((fresh .standard stillWorld).run dueHeartbeat).1 := by
    refine lone_of_settled settled fun job work found => ?_
    rw [idle] at found
    cases found
  have consecutive : Consecutive ((fresh .standard stillWorld).run dueHeartbeat).1 (.wake 0)
      untilSecond (.wake 0) 1 ⟨7, 1007, 1, 0, "", none⟩ ⟨8, 1008, 2, 0, "", none⟩ :=
    ⟨by decide, by decide, by decide, by decide⟩
  have calm : ∀ event ∈ ([] : List Event), event.intervenes = false := by simp
  have reached : ((fresh .standard stillWorld).run (dueHeartbeat ++ [])).1 =
      ((fresh .standard stillWorld).run dueHeartbeat).1 := by rw [List.append_nil]
  obtain ⟨heard, answer, rest, reply, split, hears, -, summoned⟩ :=
    renewal_between_heartbeats .standard stillWorld dueHeartbeat [] lone calm reached consecutive
  rw [List.append_nil] at summoned
  refine ⟨lone, consecutive, heard, answer, rest, reply, split, hears, fun summons => ?_⟩
  obtain ⟨info, identity, enlists, held, asked, -⟩ := summoned summons
  exact ⟨info, identity, enlists, held, asked⟩

end ExchangeNode.Session
