import ExchangeNode.Proofs.Session.Moving
import ExchangeNode.Proofs.Session.Revocation
import ExchangeNode.Proofs.Session.Waiting

/-!
# What the user of a session is told

Of all that the directory orders, a session tells its user two things: that a provider is gone, and
that the node has left its exchange. As long as only one registration is in play, the second is the
last thing it tells: the only loop ends with it.

`tells_step` says so for one step, and `leaves_of_quits` when leaving the exchange means that the
session has given its identity up for that.
-/

namespace ExchangeNode.Session

/-- The node leaves its exchange, as it was ordered: its identity has been given up for that, or was
gone already when the order came. -/
inductive Quits (s : Session) (event : Event) (order : HeartbeatReply) : Prop where
  | leaves (leaves : Leaves s event order)
  | atOnce (obeys : Obeys s event order) (safe : s.proposals.isSafe) (gone : s.live? = none)

/-- One registration has returned and no other is under way. -/
structure Enrolled (s : Session) : Prop where
  unasked : Unasked s
  single : ∀ j k, s.Alive j → s.Alive k → j = k
  reached : s.directory.isSome
  ordered : ∀ k l wait order, s.loops.get? k = some l → l.stage = .moving wait order →
    order.command = .serverChange

/-- No loop is left, and no registration is under way. -/
structure Expired (s : Session) : Prop where
  unasked : Unasked s
  ended : ∀ k, ¬ s.Alive k

/-- Nobody but a loop gives the identity up, and no loop has begun to beat without one. -/
structure Tenured (s : Session) : Prop where
  kept : ∀ job wait, s.jobs.get? job ≠ some (.revoking wait)
  live : ∀ k l, s.loops.get? k = some l → l.stage = .starting ∨ s.live?.isSome

/-- What a step tells the user, given the orders by which the node leaves its exchange in it. -/
inductive Tells (s : Session) (quits : HeartbeatReply → Prop) (after : Session) : Prop where
  | nothing (stays : ∀ order, ¬ quits order) (same : after.commands = s.commands)
  | warns {order : HeartbeatReply} (stays : ∀ order, ¬ quits order)
      (notice : order.command = .providerDisconnect)
      (sent : after.commands = s.commands.send order)
  | quits {order : HeartbeatReply} (quits : quits order)
      (ordered : order.command = .serverChange) (sent : after.commands = s.commands.send order)
      (expired : Expired after)

variable {s : Session} {event : Event} {turn : Turn} {loop : Nat} {l : Liveness} {wait : Wait}
  {reply : Option Reply} {order : HeartbeatReply}

/-! ### Who quits -/

theorem hears_of_quits (quits : Quits s event order) :
    ∃ loop l reply, s.loopHears? event = some (loop, l, reply) := by
  cases quits with
  | leaves leaves =>
    obtain ⟨loop, l, _, reply, hears, -⟩ := leaves
    exact ⟨loop, l, reply, hears⟩
  | atOnce obeys =>
    obtain ⟨loop, l, _, reply, hears, -⟩ := obeys
    exact ⟨loop, l, reply, hears⟩

theorem quits_of_beating (hears : s.loopHears? event = some (loop, l, reply))
    (beating : l.stage = .beating wait) (quits : Quits s event order) :
    judge .keepAlive reply = .ok order ∧ order.command = .serverChange ∧ s.proposals.isSafe ∧
      s.live? = none := by
  cases quits with
  | leaves leaves =>
    obtain ⟨_, _, _, _, other, moving⟩ := leaves
    cases hears.symm.trans other
    rw [beating] at moving
    cases moving
  | atOnce obeys safe gone =>
    obtain ⟨_, _, _, _, other, -, answered, ordered⟩ := obeys
    cases hears.symm.trans other
    exact ⟨answered, ordered, safe, gone⟩

theorem not_quits_of_reconnecting (hears : s.loopHears? event = some (loop, l, reply))
    (reconnecting : l.stage = .reconnecting wait) : ¬ Quits s event order := by
  intro quits
  cases quits with
  | leaves leaves =>
    obtain ⟨_, _, _, _, other, moving⟩ := leaves
    cases hears.symm.trans other
    rw [reconnecting] at moving
    cases moving
  | atOnce obeys =>
    obtain ⟨_, _, _, _, other, beating, -⟩ := obeys
    cases hears.symm.trans other
    rw [reconnecting] at beating
    cases beating

/-! ### While one registration is in play -/

theorem not_returned (unasked : Unasked s) (course : Course s event turn) {job : Nat}
    {address : String} : .finish job (.exchange address) ∉ turn.2 := by
  intro returned
  obtain ⟨_, _, _, _, _, hears, -⟩ := adopts_of_returned course returned
  cases unasked _ _ (jobHears?_spec hears)

theorem alive_of_calm (unasked : Unasked s) (course : Course s event turn) {k : Nat}
    (left : turn.1.Alive k) : s.Alive k :=
  (alive_or_begins course left).resolve_right fun ⟨_, _, _, returned⟩ =>
    not_returned unasked course returned

theorem enrolled_of_returned (settled : Settled s) (course : Course s event turn) {job : Nat}
    {address : String} (returned : .finish job (.exchange address) ∈ turn.2)
    (unasked : Unasked turn.1) : Enrolled turn.1 where
  unasked := unasked
  single j k left right := by
    obtain ⟨_, _, _, _, _, hears, -⟩ := adopts_of_returned course returned
    have new {i : Nat} (left : turn.1.Alive i) : i = s.nextLoop := by
      obtain before | ⟨begun, -⟩ := alive_or_begins course left
      · exact absurd before (not_alive_of_registering settled (jobHears?_spec hears))
      · exact begun
    rw [new left, new right]
  reached := by
    obtain ⟨_, _, _, _, _, -, rfl⟩ := adopts_of_returned course returned
    rfl
  ordered k l wait order found moving := by
    rw [starting_of_returned settled course returned found] at moving
    cases moving

/-- A loop is on its way out because it was ordered to move. -/
theorem order_step (ordered : ∀ k l wait order, s.loops.get? k = some l →
    l.stage = .moving wait order → order.command = .serverChange) (event : Event) :
    ∀ k l wait order, (s.step event).1.loops.get? k = some l → l.stage = .moving wait order →
      order.command = .serverChange := by
  intro k l wait order found moving
  obtain ⟨m, before, same⟩ | reached := stage_course (s.step_course event) found
  · exact ordered k m wait order before (same.trans moving)
  · rw [moving] at reached
    cases reached with
    | rests free => cases free
    | moves _ obeys =>
      obtain ⟨_, _, _, _, -, -, -, ordered⟩ := obeys
      exact ordered

theorem enrolled_step (enrolled : Enrolled s) (calm : event.registers = false) :
    Enrolled (s.step event).1 where
  unasked := unasked_step enrolled.unasked calm
  single j k left right :=
    have before {i : Nat} := alive_of_calm (k := i) enrolled.unasked (s.step_course event)
    enrolled.single j k (before left) (before right)
  reached := by
    have course := s.step_course event
    generalize s.step event = turn at course
    cases course with
    | adopts hears | forgets hears => cases enrolled.unasked _ _ (jobHears?_spec hears)
    | _ => exact enrolled.reached
  ordered := order_step enrolled.ordered event

theorem expired_step (expired : Expired s) (calm : event.registers = false) :
    Expired (s.step event).1 ∧ (s.step event).1.commands = s.commands := by
  have course := s.step_course event
  have none {loop : Nat} {l : Liveness} {reply : Option Reply}
      (hears : s.loopHears? event = some (loop, l, reply)) : False :=
    expired.ended loop (alive_of_get? (loopHears?_spec hears).1)
  refine ⟨⟨unasked_step expired.unasked calm, fun k left =>
    expired.ended k (alive_of_calm expired.unasked course left)⟩, ?_⟩
  generalize s.step event = turn at course
  cases course with
  -- Only a loop tells the user anything.
  | publishes hears | movesAtOnce hears | leaves hears => exact (none hears).elim
  | _ => rfl

/-! ### One step -/

/-- The last loop ends with the identity. -/
theorem expired_of_pause {t : Session} (unasked : Unasked t)
    (only : ∀ k, t.Alive k → k = loop) (gone : t.live? = none) : Expired (t.pause loop l) := by
  refine ⟨unasked, fun k left => ?_⟩
  obtain ⟨m, found⟩ := Option.isSome_iff_exists.mp left
  simp only [pause, gone] at found
  obtain ⟨different, before⟩ := Table.of_get?_erase found
  exact different (only k (alive_of_get? before))

theorem tells_of_beating (enrolled : Enrolled s)
    (hears : s.loopHears? event = some (loop, l, reply)) (beating : l.stage = .beating wait) :
    Tells s (Quits s event) (s.step event).1 := by
  have only (k : Nat) (left : s.Alive k) : k = loop :=
    enrolled.single k loop left (alive_of_get? (loopHears?_spec hears).1)
  rw [step_of_loopHears? hears]
  simp only [loopAnswered, beating]
  cases answered : judge .keepAlive reply with
  | error e =>
    refine .nothing (fun order quits => ?_) rfl
    cases answered.symm.trans (quits_of_beating hears beating quits).1
  | ok order =>
    have quitsBy {other : HeartbeatReply} (quits : Quits s event other) :
        order.command = .serverChange ∧ s.proposals.isSafe ∧ s.live? = none := by
      obtain ⟨same, rest⟩ := quits_of_beating hears beating quits
      cases answered.symm.trans same
      exact rest
    simp only [beaten, replied]
    cases ordered : order.command with
    | nothing =>
      refine .nothing (fun other quits => ?_) rfl
      cases ordered.symm.trans (quitsBy quits).1
    | reconnect =>
      have stays (other : HeartbeatReply) (quits : Quits s event other) : False := by
        cases ordered.symm.trans (quitsBy quits).1
      simp only [reconnect, enrolled.reached]
      split
      · exact .nothing stays rfl
      · exact .nothing stays rfl
    | providerDisconnect =>
      have stays (other : HeartbeatReply) (quits : Quits s event other) : False := by
        cases ordered.symm.trans (quitsBy quits).1
      simp only
      split
      · exact .warns stays ordered rfl
      · exact .nothing stays rfl
    | serverChange =>
      simp only [move, enrolled.reached]
      split
      next safe =>
        split
        next live =>
          refine .nothing (fun other quits => ?_) rfl
          cases live.symm.trans (quitsBy quits).2.2
        -- There is no identity to give up any more, and the loop ends at once.
        next gone =>
          exact .quits (.atOnce ⟨loop, l, wait, reply, hears, beating, answered, ordered⟩ safe gone)
            ordered rfl (expired_of_pause enrolled.unasked only gone)
      next busy =>
        have stays (other : HeartbeatReply) (quits : Quits s event other) : False :=
          busy (quitsBy quits).2.1
        split
        · exact .nothing stays rfl
        · exact .nothing stays rfl

theorem tells_of_leaves (enrolled : Enrolled s)
    (hears : s.loopHears? event = some (loop, l, reply)) (moving : l.stage = .moving wait order) :
    Tells s (Quits s event) (s.step event).1 := by
  have found := (loopHears?_spec hears).1
  have ordered := enrolled.ordered loop l wait order found moving
  rw [step_of_loopHears? hears]
  simp only [loopAnswered, moving]
  refine .quits (.leaves ⟨loop, l, wait, reply, hears, moving⟩) ordered rfl ?_
  refine expired_of_pause enrolled.unasked (fun k left => ?_) (live?_revoke s)
  obtain ⟨m, after⟩ := Option.isSome_iff_exists.mp left
  have before := alive_of_stays (stays_of_stopCurrent after).1
  exact enrolled.single k loop before (alive_of_get? found)

/-- The user is told of a provider that is gone, or that the node has left its exchange, which it
does just then; and in the second case nothing is left to tell it anything more. -/
theorem tells_step (enrolled : Enrolled s) (event : Event) :
    Tells s (Quits s event) (s.step event).1 := by
  cases hears : s.loopHears? event with
  | none =>
    refine .nothing (fun order quits => ?_) ?_
    · obtain ⟨loop, l, reply, other⟩ := hears_of_quits quits
      cases hears.symm.trans other
    · have course := s.step_course event
      generalize s.step event = turn at course
      cases course with
      | publishes other | movesAtOnce other | leaves other => cases hears.symm.trans other
      | _ => rfl
  | some entry =>
    obtain ⟨loop, l, reply⟩ := entry
    obtain ⟨found, wait, waits, -⟩ := loopHears?_spec hears
    cases stage : l.stage with
    -- A loop at these stages waits for no call.
    | starting => simp [stage, Stage.wait?] at waits
    | sleeping => simp [stage, Stage.wait?] at waits
    | beating => exact tells_of_beating enrolled hears stage
    | moving => exact tells_of_leaves enrolled hears stage
    | reconnecting =>
      refine .nothing (fun order => not_quits_of_reconnecting hears stage) ?_
      rw [step_of_loopHears? hears]
      simp only [loopAnswered, stage, reconnected]
      split
      · rfl
      · rfl

/-! ### Leaving with an identity -/

theorem leaves_of_quits (tenured : Tenured s) (quits : Quits s event order) :
    Leaves s event order := by
  cases quits with
  | leaves leaves => exact leaves
  | atOnce obeys _ gone =>
    obtain ⟨loop, l, wait, reply, hears, beating, -⟩ := obeys
    obtain starting | live := tenured.live loop l (loopHears?_spec hears).1
    · rw [beating] at starting
      cases starting
    · rw [gone] at live
      cases live

/-- A loop that pauses ends where there is no identity. -/
theorem live_of_pause {t : Session} {m : Liveness}
    (others : ∀ k l, t.loops.get? k = some l → k ≠ loop → l.stage = .starting ∨ t.live?.isSome) :
    ∀ k l, (t.pause loop m).loops.get? k = some l →
      l.stage = .starting ∨ (t.pause loop m).live?.isSome := by
  intro k l found
  cases live : t.live? with
  | some identity => exact .inr (Option.isSome_iff_exists.mpr ⟨identity, live⟩)
  | none =>
    simp only [pause, live] at found
    obtain ⟨different, before⟩ := Table.of_get?_erase found
    have dead := others k l before different
    rw [live] at dead
    exact .inl (dead.resolve_right Bool.false_ne_true)

theorem kept_step (tenured : Tenured s) (kept : ∀ job, event ≠ .unregister job) (job : Nat)
    (wait : Wait) : (s.step event).1.jobs.get? job ≠ some (.revoking wait) := by
  have course := s.step_course event
  generalize s.step event = turn at course
  have set {other : Nat} {work : Work} (different : ∀ wait, work ≠ .revoking wait) :
      (s.jobs.set other work).get? job ≠ some (.revoking wait) := by
    intro found
    obtain ⟨-, same⟩ | ⟨-, before⟩ := Table.of_get?_set found
    · exact different wait same.symm
    · exact tenured.kept job wait before
  have erased (other : Nat) : (s.jobs.erase other).get? job ≠ some (.revoking wait) :=
    fun found => tenured.kept job wait (Table.of_get?_erase found).2
  cases course with
  -- Only a call of the user makes a job give the identity up.
  | @unregisters other => exact absurd rfl (kept other)
  | dials | clears | applies | cleared | revokes | stops | asks => exact set (by simp)
  | undialed | adopts | forgets | unregistersInVain | revokesAtLast | stopsAtOnce | stopped
  | asksInVain | learns | abandons | issues => exact erased _
  | _ => exact tenured.kept job wait

theorem live_step (enrolled : Enrolled s) (tenured : Tenured s) (calm : event.registers = false)
    {k : Nat} {after : Liveness} (found : (s.step event).1.loops.get? k = some after) :
    after.stage = .starting ∨ (s.step event).1.live?.isSome := by
  have course := s.step_course event
  generalize s.step event = turn at course found
  have live {loop : Nat} {l : Liveness} {reply : Option Reply} {wait : Wait}
      (hears : s.loopHears? event = some (loop, l, reply)) (beating : l.stage = .beating wait) :
      s.live?.isSome := by
    refine (tenured.live loop l (loopHears?_spec hears).1).resolve_left fun starting => ?_
    rw [beating] at starting
    cases starting
  -- The loop that hears is the only one.
  have only {loop j : Nat} {l : Liveness} {reply : Option Reply}
      (hears : s.loopHears? event = some (loop, l, reply)) (left : s.Alive j) : j = loop :=
    enrolled.single j loop left (alive_of_get? (loopHears?_spec hears).1)
  cases course with
  | clears applies | applies applies => exact absurd applies (not_applicant enrolled.unasked calm)
  | cleared clearing => cases enrolled.unasked _ _ clearing
  | adopts hears | forgets hears => cases enrolled.unasked _ _ (jobHears?_spec hears)
  | revokes hears | revokesAtLast hears => exact absurd (jobHears?_spec hears) (tenured.kept _ _)
  | stops | stopsAtOnce =>
    obtain ⟨⟨m, before, same, -⟩, -⟩ := stays_of_stopCurrent found
    exact same ▸ tenured.live k m before
  | starts | pauses | publishes | staysAsItIs | movesAtOnce | defers =>
    exact live_of_pause (fun j m before _ => tenured.live j m before) k after found
  -- A new identity may be worthless. Then the loop ends too.
  | renews hears =>
    refine live_of_pause (fun j m before different => ?_) k after found
    exact absurd (only hears (alive_of_get? before)) different
  | leaves hears =>
    refine live_of_pause (fun j m before different => ?_) k after found
    have left := alive_of_stays (stays_of_stopCurrent before).1
    exact absurd (only hears left) different
  | beats _ _ held => exact .inr held
  | reconnects hears beating | moves hears beating => exact .inr (live hears beating)
  | dies | heeds => exact tenured.live k after (Table.of_get?_erase found).2
  | _ => exact tenured.live k after found

theorem tenured_of_returned (settled : Settled s) (course : Course s event turn) {job : Nat}
    {address : String} (returned : .finish job (.exchange address) ∈ turn.2)
    (kept : ∀ job wait, turn.1.jobs.get? job ≠ some (.revoking wait)) : Tenured turn.1 where
  kept := kept
  live _ _ found := .inl (starting_of_returned settled course returned found)

theorem tenured_step (enrolled : Enrolled s) (tenured : Tenured s)
    (calm : event.registers = false) (kept : ∀ job, event ≠ .unregister job) :
    Tenured (s.step event).1 where
  kept := kept_step tenured kept
  live _ _ := live_step enrolled tenured calm

end ExchangeNode.Session
