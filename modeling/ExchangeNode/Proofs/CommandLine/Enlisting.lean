import ExchangeNode.Proofs.CommandLine.Cleanup
import ExchangeNode.Proofs.CommandLine.Following

/-!
# A command that only registers

Such a command has its node do nothing else, and goes on in the very turn in which the registration
returns. So it subscribes before there is anything to tell, and from then on it does what
`followAll` says, until it ends.

`subscribed_of_follows` says the first for every command that has come to follow the directory, and
`registered_until_departure` what becomes of every such command from its start to its end, as long
as its user does not interrupt it.
-/

namespace ExchangeNode

/-- The world begins no registration but the one that was dialed for. -/
theorem Session.proper_of_applying {s : Session} {event : Event} {job : Nat}
    {registration : Registration} {asked : List Registration}
    (applying : Applying s job registration asked) (worldly : event.isWorldly) :
    Proper s event where
  patient entry member own := by
    cases event with
    | dial | register | unregister | shutdown | query | generate | abandon => cases worldly
    | _ => cases own
  alone applies entry member := by
    obtain ⟨⟨other, directory, info⟩, applies⟩ := Option.isSome_iff_exists.mp applies
    obtain rfl | ⟨rfl, dialing⟩ := applicant?_spec applies
    · cases worldly
    -- As long as one job dials, no job has asked for a registration.
    obtain ⟨-, ⟨_, -, unasked⟩ | ⟨_, _, same, -⟩⟩ := applying.waiting other _ dialing
    · obtain ⟨-, ⟨_, same, -⟩ | ⟨_, _, -, hasAsked⟩⟩ :=
        applying.waiting entry.1 entry.2 (Table.get?_of_mem member)
      · rw [same]
        exact ⟨rfl, rfl⟩
      · rw [unasked] at hasAsked
        cases hasAsked
    · cases same

theorem Node.orderly_concat {n : Node} {past : List Event} {event : Event}
    (orderly : n.Orderly past)
    (proper : ∀ seen ∈ (n.run past).1.seen? event, (n.run past).1.session.Proper seen) :
    n.Orderly (past ++ [event]) := by
  induction past generalizing n with
  | nil => exact ⟨proper, trivial⟩
  | cons first rest ih => exact ⟨orderly.1, ih orderly.2 proper⟩

namespace Execution

/-- A command waits for its registration to return. -/
structure Enlisting (x : Execution) : Prop where
  registers : x.command = .register
  progress : x.progress = .registering
  free : x.node.Free
  came : ∃ options world past, (Node.fresh options world).Orderly past ∧
    x.node = ((Node.fresh options world).run past).1
  applying : ∃ registration asked, x.node.session.Applying registerJob registration asked

/-- The registration has returned, and the command follows with a node that has nothing to do but
to stay registered. -/
structure Enlisted (x : Execution) : Prop where
  subscribed : Subscribed x
  free : x.node.Free
  idle : ∀ job, x.node.session.jobs.get? job = none

variable {x : Execution}

theorem enlisting_start (configuration : Configuration) (world : Surroundings) :
    Enlisting (start configuration .register world).1 := by
  let options := configuration.node
  let registration := Registration.ofNode options.name options.channelTypes options.server
  let dial : Node.Event :=
    .session (.dial registerJob options.directoryAddress registration)
  have orderly : (Node.fresh configuration.keepAlive world).Orderly [dial] := by
    refine ⟨fun seen sees => ?_, trivial⟩
    cases sees
    exact ⟨by simp [Node.fresh, Session.fresh, Table.empty], nofun⟩
  refine ⟨rfl, rfl, fun _ => rfl, ⟨_, world, [dial], orderly, rfl⟩, registration, [], .inl rfl,
    fun _ => rfl, rfl, fun job work found => ?_⟩
  obtain ⟨rfl, rfl⟩ | ⟨-, before⟩ := Table.of_get?_set found
  · exact ⟨rfl, .inl ⟨_, rfl, rfl⟩⟩
  · cases before

/-- The session goes on with its registration, or that returns. -/
theorem enlisting_seen (enlisting : Enlisting x) {happens : Node.Event} {seen : Session.Event}
    (sees : x.node.seen? happens = some seen) (worldly : seen.isWorldly)
    (turn : x.node.step happens = x.node.ofSession (x.node.session.step seen)) {after : Execution}
    (heeded : (heed { x with node := (x.node.step happens).1 } (x.node.step happens).2).1 = after) :
    Enlisting after ∨ Enlisted after ∨ ∃ failure, after.progress = .ended (some failure) := by
  have ⟨registers, progress, free, ⟨options, world, past, orderly, reached⟩, registration, asked,
    applying⟩ := enlisting
  subst heeded
  have proper := Session.proper_of_applying applying worldly
  cases Session.application_course applying worldly (x.node.session.step_course seen) with
  | goesOn untaken calls applying =>
    -- All that the session does is to call the directory.
    have asks : ∀ effect ∈ (x.node.step happens).2,
        ∃ call request, effect = .call call request := by
      intro effect member
      rw [turn] at member
      obtain ⟨call, same⟩ := calls effect member
      exact ⟨call, .register registration, same⟩
    have came : (Node.fresh options world).Orderly (past ++ [happens]) := by
      refine Node.orderly_concat orderly fun other same => ?_
      rw [← reached] at same ⊢
      cases sees.symm.trans same
      exact proper
    have applying : ∃ registration asked,
        (x.node.step happens).1.session.Applying registerJob registration asked := by
      rw [turn]
      exact ⟨_, _, applying⟩
    rw [heed_of_calls asks]
    refine .inl ⟨registers, progress, ?_, ⟨options, world, _, came, ?_⟩, applying⟩
    · rw [turn]
      exact free
    · rw [Node.run_concat, ← reached]
  | fails untaken effects =>
    rw [turn]
    simp only [Node.ofSession, effects, heed_finish, goOn, progress]
    exact .inr (.inr ⟨_, rfl⟩)
  | @succeeds new took answered effects standing =>
    have goesOn : heed { x with node := (x.node.step happens).1 } (x.node.step happens).2 =
        registered { x with node := (x.node.step happens).1 }
          (.exchange new.exchangeAddress) := by
      rw [turn]
      simp only [Node.ofSession, effects, heed_finish, goOn, progress]
    have returned : .finish registerJob (.exchange new.exchangeAddress) ∈
        (((Node.fresh options world).run past).1.step happens).2 := by
      rw [← reached, turn, Node.ofSession, effects]
      exact List.mem_singleton_self _
    have idle (job : Nat) : (x.node.step happens).1.session.jobs.get? job = none := by
      rw [turn]
      exact standing.idle job
    have unasked : (x.node.step happens).1.session.Unasked := by
      intro job work found
      cases (idle job).symm.trans found
    have registers : ({ x with node := (x.node.step happens).1 } : Execution).command =
        .register := registers
    have same := node_registered registers new.exchangeAddress
    rw [goesOn]
    refine .inr (.inl ⟨subscribed_of_registered registers orderly returned ?_ unasked, ?_, ?_⟩)
    · rw [reached]
    · rw [same, turn]
      exact free
    · rw [same]
      exact idle

theorem enlisting_step (enlisting : Enlisting x) (event : Event) :
    Enlisting (x.step event).1 ∨ Enlisted (x.step event).1 ∨
      ∃ failure, (x.step event).1.progress = .ended (some failure) := by
  have ⟨registers, progress, free, _, _⟩ := enlisting
  cases moved : x.world? event with
  -- The command reads nothing yet, and does not listen.
  | none =>
    have interrupt : x.interrupt = (x, []) := by simp only [interrupt, registers, progress]
    have receive : x.receive = (x, []) := by simp only [receive, progress]
    obtain same | same | same := step_of_unworldly moved
    · rw [same]
      exact .inl enlisting
    · rw [same, interrupt]
      exact .inl enlisting
    · rw [same, receive]
      exact .inl enlisting
  | some happens =>
    obtain ⟨-, worldly, turn⟩ := step_of_world moved
    rw [turn]
    cases sees : x.node.seen? happens with
    | none =>
      have errands := Node.errands_of_unseen worldly sees
      generalize x.node.step happens = turn at errands
      cases errands with
      | idles => exact .inl enlisting
      | connects found | undialed found | answered _ found | receives found | ends _ found =>
        rw [free] at found
        cases found
    | some seen =>
      obtain ⟨worldly, turn⟩ := Node.step_of_seen worldly sees
      exact enlisting_seen enlisting sees worldly turn rfl

/-- A command registers still, or has failed to, or has been enlisted at some time. -/
theorem enlisting_run (enlisting : Enlisting x) (events : List Event) :
    Enlisting (x.run events).1 ∨ (∃ failure, (x.run events).1.progress = .ended (some failure)) ∨
      ∃ before event after, events = before ++ event :: after ∧
        Enlisted ((x.run before).1.step event).1 := by
  induction events generalizing x with
  | nil => exact .inl enlisting
  | cons event rest ih =>
    rw [Session.exists_split_cons, run_cons]
    obtain still | enlisted | ⟨failure, ended⟩ := enlisting_step enlisting event
    · exact (ih still).imp_right (Or.imp_right .inr)
    · exact .inr (.inr (.inl enlisted))
    · rw [run_of_ended ended]
      exact .inr (.inl ⟨failure, ended⟩)

/-- Whatever happens to it, a command that follows the directory has begun to do so in the turn in
which its registration has returned. -/
theorem subscribed_of_follows (configuration : Configuration) (world : Surroundings)
    {events : List Event} {position : Nat}
    (follows : ((start configuration .register world).1.run events).1.progress =
      .following position) :
    ∃ before event after, events = before ++ event :: after ∧
      Subscribed (((start configuration .register world).1.run before).1.step event).1 := by
  obtain still | ⟨failure, ended⟩ | ⟨before, event, after, split, enlisted⟩ :=
    enlisting_run (enlisting_start configuration world) events
  · cases still.progress.symm.trans follows
  · cases ended.symm.trans follows
  · exact ⟨before, event, after, split, enlisted.subscribed⟩

/-! ### From the registration to the end -/

/-- What an event of a command that follows, and that nobody interrupts, comes to. -/
def Event.move? : Event → Option Move
  | .node event => if event.isWorldly then some (.node event) else none
  | .interrupt => none
  | .receive => some .read

def moves (events : List Event) : List Move := events.filterMap Event.move?

theorem happenings_append (first more : List Event) :
    happenings (moves (first ++ more)) = happenings (moves first) ++ happenings (moves more) := by
  rw [moves, List.filterMap_append, happenings, List.filterMap_append]
  rfl

theorem followAll_moves_cons (x : Execution) (event : Event) (rest : List Event) :
    x.followAll (moves (event :: rest)) =
      (event.move?.elim x x.follow).followAll (moves rest) := by
  rw [moves, List.filterMap_cons]
  cases event.move? with
  | none | some => rfl

/-- The world neither registers a node nor gives its identity up. -/
theorem calm_of_moves (events : List Event) {happens : Node.Event}
    (happened : happens ∈ happenings (moves events)) :
    happens.registers = false ∧ happens.unregisters = false := by
  -- What happens has become a move, and only the world makes such moves.
  obtain ⟨move, isMove, isEvent⟩ := List.mem_filterMap.mp happened
  obtain ⟨event, -, same⟩ := List.mem_filterMap.mp isMove
  have worldly : happens.isWorldly := by
    cases event with
    | node event =>
      simp only [Event.move?] at same
      split at same
      next worldly =>
        cases same
        cases isEvent
        exact worldly
      · cases same
    | interrupt => cases same
    | receive =>
      cases same
      cases isEvent
  cases happens with
  | session seen =>
    cases seen with
    | dial | register | unregister => cases worldly
    | _ => exact ⟨rfl, rfl⟩
  | _ => exact ⟨rfl, rfl⟩

/-- The node of a command that follows has no records for it, so that it only goes on. -/
theorem step_of_free {event : Event} {position : Nat} (follows : x.progress = .following position)
    (free : x.node.Free) (uninterrupted : event ≠ .interrupt) :
    (x.step event).1 = event.move?.elim x x.follow ∧ (x.step event).1.node.Free := by
  cases event with
  | interrupt => exact absurd rfl uninterrupted
  | receive =>
    have reads : (x.step .receive).1 = x.follow .read := by simp only [step, follows, follow]
    rw [reads]
    exact ⟨rfl, (node_receive x).symm ▸ free⟩
  | node event =>
    cases worldly : event.isWorldly with
    | false =>
      have still : x.step (.node event) = (x, []) := by simp [step, follows, worldly]
      rw [still]
      exact ⟨by simp [Event.move?, worldly], free⟩
    | true =>
      obtain ⟨stillFree, undelivered⟩ := free.step worldly
      rw [(step_of_following follows).2 worldly undelivered]
      exact ⟨by simp [Event.move?, worldly], stillFree⟩

theorem follow_following {position : Nat} (follows : x.progress = .following position)
    (move : Move) :
    (∃ position, (x.follow move).progress = .following position) ∨
      ∃ failure, (x.follow move).progress = .ended failure := by
  cases move with
  | node => exact .inl ⟨position, follows⟩
  | read =>
    simp only [follow, receive, follows]
    split
    · exact .inl ⟨position, follows⟩
    · exact .inl ⟨_, rfl⟩
    · split
      · exact .inr ⟨_, rfl⟩
      · exact .inl ⟨_, rfl⟩
      · exact .inl ⟨_, rfl⟩

/-- A command that follows goes on with what happens, up to its end. -/
theorem run_of_following {events : List Event} {position : Nat}
    (follows : x.progress = .following position) (free : x.node.Free)
    (uninterrupted : .interrupt ∉ events) :
    ∃ before after, events = before ++ after ∧ (x.run events).1 = x.followAll (moves before) ∧
      ((x.run events).1.hasEnded ∨ after = []) := by
  induction events generalizing x position with
  | nil => exact ⟨[], [], rfl, rfl, .inr rfl⟩
  | cons event rest ih =>
    obtain ⟨calm, others⟩ := List.ne_and_not_mem_of_not_mem_cons uninterrupted
    obtain ⟨turn, stillFree⟩ := step_of_free follows free (Ne.symm calm)
    have goesOn : (∃ position, (x.step event).1.progress = .following position) ∨
        ∃ failure, (x.step event).1.progress = .ended failure := by
      rw [turn]
      cases event.move? with
      | none => exact .inl ⟨position, follows⟩
      | some move => exact follow_following follows move
    rw [run_cons]
    obtain ⟨next, still⟩ | ⟨failure, ended⟩ := goesOn
    · obtain ⟨before, after, rfl, same, isOver⟩ := ih still stillFree others
      refine ⟨event :: before, after, rfl, ?_, isOver⟩
      rw [followAll_moves_cons, ← turn]
      exact same
    -- After its end nothing is anything to the command.
    · rw [run_of_ended ended]
      refine ⟨[event], rest, rfl, ?_, .inl (by simp [hasEnded, ended])⟩
      rw [followAll_moves_cons, turn]
      rfl

variable {events : List Event}

theorem departs_of_hasEnded (enlisted : Enlisted x) (uninterrupted : .interrupt ∉ events)
    (ended : (x.run events).1.hasEnded) :
    x.node.Departs (happenings (moves events)) ∧ Notified (x.run events).1 := by
  obtain ⟨before, after, rfl, same, -⟩ :=
    run_of_following enlisted.subscribed.follows enlisted.free uninterrupted
  rw [same] at ended ⊢
  obtain ⟨departs, notified⟩ := notified_of_ended enlisted.subscribed
    (fun _ happened => (calm_of_moves before happened).1) ended
  rw [happenings_append]
  exact ⟨departs.append _, notified⟩

/-- Once the node has left, the command ends when it has read on often enough, if not before. -/
theorem run_hasEnded_of_departs (enlisted : Enlisted x) {more : List Event}
    (uninterrupted : .interrupt ∉ events ++ more)
    (many : Broadcast.capacity < (moves more).countP Move.isRead)
    (departs : x.node.Departs (happenings (moves events))) :
    (x.run (events ++ more)).1.hasEnded := by
  obtain ⟨before, after, split, same, ended | rfl⟩ :=
    run_of_following enlisted.subscribed.follows enlisted.free uninterrupted
  -- The command has ended on the way, or it has followed all that happened.
  · exact ended
  · rw [List.append_nil] at split
    rw [same, ← split, moves, List.filterMap_append]
    exact hasEnded_of_departs enlisted.subscribed
      (fun _ happened => (calm_of_moves events happened).1)
      (fun _ happened => (calm_of_moves more happened).1) many departs

/-- As long as nobody interrupts it, a command that only registers is registering, or it has failed
to, or it has followed from the turn on in which its registration returned. Then it ends only with
the departure of the node, and with the news of that; it does end once it has read on often enough
after the departure; and the node departs just when it has unregistered itself. -/
theorem registered_until_departure (configuration : Configuration) (world : Surroundings)
    (uninterrupted : .interrupt ∉ events) :
    let x := ((start configuration .register world).1.run events).1
    Enlisting x ∨ (∃ failure, x.progress = .ended (some failure)) ∨
      ∃ before event after, events = before ++ event :: after ∧
        let y := (((start configuration .register world).1.run before).1.step event).1
        let happened := happenings (moves after)
        Subscribed y ∧ (x.hasEnded → y.node.Departs happened ∧ Notified x) ∧
          (∀ more, .interrupt ∉ more → Broadcast.capacity < (moves more).countP Move.isRead →
            y.node.Departs happened → (x.run more).1.hasEnded) ∧
          (y.node.Departs happened ↔ y.node.UnregistersItself happened) := by
  intro x
  obtain still | failed | ⟨before, event, after, rfl, enlisted⟩ :=
    enlisting_run (enlisting_start configuration world) events
  · exact .inl still
  · exact .inr (.inl failed)
  have later : .interrupt ∉ after := fun member =>
    uninterrupted (List.mem_append_right before (.tail event member))
  have same : x = ((((start configuration .register world).1.run before).1.step event).1.run
      after).1 := by
    simp only [x, run_append, run_cons]
  refine .inr (.inr ⟨before, event, after, rfl, enlisted.subscribed, ?_, ?_, ?_⟩)
  · rw [same]
    exact departs_of_hasEnded enlisted later
  · intro more calm many departs
    have ends := run_hasEnded_of_departs enlisted
      (fun member => (List.mem_append.mp member).elim later calm) many departs
    rw [run_append] at ends
    rw [same]
    exact ends
  · exact departs_iff_unregistersItself enlisted.subscribed
      (fun _ happened => (calm_of_moves after happened).1) (by simp [enlisted.idle])
      (fun _ happened => (calm_of_moves after happened).2)

end Execution

end ExchangeNode
