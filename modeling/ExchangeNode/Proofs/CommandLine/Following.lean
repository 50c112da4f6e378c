import ExchangeNode.CommandLine.Execution
import ExchangeNode.Proofs.Node.Notices

/-!
# Following the directory

A command that has registered the node reads what the directory has to tell, at its own pace, until
it is told that the node has left its exchange. Only the newest notices are kept for it. That this
one is never among those missed is because nothing comes after it, so it stays the newest.

`ends_with_departure` says that the command ends just with the departure of the node, and how soon.
-/

namespace ExchangeNode.Execution

/-- What comes next while a command follows the directory: something happens to the node, or the
command reads on. The node may be busy with other things meanwhile, so that its user has more to say
than the command does. -/
inductive Move where
  | node (event : Node.Event)
  | read

def Move.event? : Move → Option Node.Event
  | .node event => some event
  | .read => none

def Move.isRead : Move → Bool
  | .node _ => false
  | .read => true

def follow (x : Execution) : Move → Execution
  | .node event => { x with node := (x.node.step event).1 }
  | .read => x.receive.1

def followAll (x : Execution) (moves : List Move) : Execution := moves.foldl follow x

/-- All that happens to the node. -/
def happenings (moves : List Move) : List Node.Event := moves.filterMap Move.event?

/-- A registration in good order has just returned, no other is under way, and the command is to
read what comes from now on. It makes no difference if it begins to follow later, but before the
first notice. -/
structure Subscribed (x : Execution) : Prop where
  returned : ∃ options world past event job address,
    (Node.fresh options world).Orderly past ∧
      .finish job (.exchange address) ∈ (((Node.fresh options world).run past).1.step event).2 ∧
      x.node = (((Node.fresh options world).run past).1.step event).1
  unasked : x.node.session.Unasked
  follows : x.progress = .following x.node.session.commands.subscribe

/-- The command has ended well, with the news that the node has left its exchange. -/
structure Notified (x : Execution) : Prop where
  ended : x.progress = .ended none
  told : x.printed.head? = some (.warning "Exchange server changed; register again to continue")

/-- The command is about to read what comes after the first of the notices that were sent since a
certain time. -/
structure Reads (x : Execution) (b : Broadcast HeartbeatReply) (notices : List HeartbeatReply)
    (offset : Nat) : Prop where
  commands : x.node.session.commands = b.sendAll notices
  within : offset ≤ notices.length
  follows : x.progress = .following (b.sent + offset)

/-- What comes of it when the command reads on. -/
inductive Reading (x : Execution) (b : Broadcast HeartbeatReply) (notices : List HeartbeatReply)
    (offset : Nat) (after : Execution) : Prop where
  | waits (caughtUp : offset = notices.length) (same : after = x)
  | heeds {order : HeartbeatReply} (next : notices[offset]? = some order)
      (other : order.command ≠ .serverChange)
      (late : notices.length ≤ offset + Broadcast.capacity) (node : after.node = x.node)
      (reads : Reads after b notices (offset + 1))
  | skips {later : Nat} (behind : offset < later)
      (oldest : later + Broadcast.capacity = notices.length) (node : after.node = x.node)
      (reads : Reads after b notices later)
  | ends {order : HeartbeatReply} (next : notices[offset]? = some order)
      (ordered : order.command = .serverChange) (notified : Notified after)

/-- The node is still at its exchange. -/
structure Staying (x : Execution) (b : Broadcast HeartbeatReply) (notices : List HeartbeatReply)
    (offset : Nat) : Prop where
  reads : Reads x b notices offset
  enrolled : x.node.session.Enrolled
  warnings : ∀ notice ∈ notices, notice.command = .providerDisconnect

/-- The node has left, and the command is yet to read so. -/
structure Parting (x : Execution) (b : Broadcast HeartbeatReply) (notices : List HeartbeatReply)
    (order : HeartbeatReply) (offset : Nat) : Prop where
  reads : Reads x b (notices ++ [order]) offset
  unread : offset ≤ notices.length
  expired : x.node.session.Expired
  warnings : ∀ notice ∈ notices, notice.command = .providerDisconnect
  ordered : order.command = .serverChange

/-- The node is at its exchange, or has left; then it is the news of that that the command ends
with. -/
inductive Stands (x : Execution) (b : Broadcast HeartbeatReply) : Prop where
  | staying {notices offset} (staying : Staying x b notices offset)
  | parting {notices order offset} (parting : Parting x b notices order offset)
  | ended (notified : Notified x)

variable {x : Execution} {b : Broadcast HeartbeatReply} {notices : List HeartbeatReply}
  {order : HeartbeatReply} {offset position : Nat} {event : Node.Event} {moves : List Move}

/-! ### Following is what the command does -/

theorem heed_of_following (follows : x.progress = .following position) {effects : List Effect}
    (undelivered : ∀ job item, .deliver job item ∉ effects) : (x.heed effects).1 = x := by
  induction effects with
  | nil => rfl
  | cons effect rest ih =>
    have later := ih fun job item member => undelivered job item (.tail _ member)
    cases effect with
    | deliver job item => exact absurd List.mem_cons_self (undelivered job item)
    | finish job outcome =>
      have goesOn : x.goOn outcome = (x, []) := by simp only [goOn, follows]
      simp only [heed, goesOn]
      exact later
    | dial | call | pull => exact later

/-- What the world does to the node of a command that follows is a move, and so is reading. -/
theorem step_of_following (follows : x.progress = .following position) :
    (x.step .receive).1 = x.follow .read ∧
      (event.isWorldly → (∀ job item, .deliver job item ∉ (x.node.step event).2) →
        (x.step (.node event)).1 = x.follow (.node event)) := by
  constructor
  · simp only [step, follows, follow]
  · intro worldly undelivered
    have turn : x.step (.node event) =
        heed { x with node := (x.node.step event).1 } (x.node.step event).2 := by
      simp only [step, follows, if_pos worldly]
    have still : ({ x with node := (x.node.step event).1 } : Execution).progress =
        .following position := follows
    rw [turn]
    exact heed_of_following still undelivered

theorem node_registered (registers : x.command = .register) (address : String) :
    (x.registered (.exchange address)).1.node = x.node := by
  have shown (lines : List Line) (y : Execution) : (lines.foldl print y).node = y.node := by
    induction lines generalizing y with
    | nil => rfl
    | cons line rest ih => exact ih (y.print line)
  simp only [registered, registers]
  exact shown _ x

/-- So does a command begin to follow. -/
theorem subscribed_of_registered (registers : x.command = .register) {options : KeepAliveOptions}
    {world : Surroundings} {past : List Node.Event} {job : Nat} {address : String}
    (orderly : (Node.fresh options world).Orderly past)
    (returned : .finish job (.exchange address) ∈
      (((Node.fresh options world).run past).1.step event).2)
    (reached : x.node = (((Node.fresh options world).run past).1.step event).1)
    (unasked : x.node.session.Unasked) : (x.registered (.exchange address)).1.Subscribed := by
  have same := node_registered registers address
  refine ⟨⟨options, world, past, event, job, address, orderly, returned, same.trans reached⟩,
    ?_, ?_⟩
  · rw [same]
    exact unasked
  · rw [same]
    simp only [registered, registers]

/-! ### Reading -/

theorem receive_reading (trim : b.Trim) (reads : Reads x b notices offset) :
    Reading x b notices offset x.receive.1 := by
  have receives := Broadcast.receive_sendAll trim reads.within
  rw [← reads.commands] at receives
  simp only [receive, reads.follows]
  generalize x.node.session.commands.receive (b.sent + offset) = got at receives
  cases receives with
  | nothing caughtUp => exact .waits caughtUp rfl
  | missed behind oldest =>
    exact .skips behind oldest rfl ⟨reads.commands, by omega, rfl⟩
  | @value order next late =>
    have unread : offset + 1 ≤ notices.length := (List.getElem?_eq_some_iff.mp next).1
    cases command : order.command with
    | serverChange =>
      simp only [command]
      exact .ends next command ⟨rfl, rfl⟩
    -- Whatever else is read, the command reads on.
    | nothing | reconnect | providerDisconnect =>
      simp only [command]
      exact .heeds next (by simp [command]) late rfl ⟨reads.commands, unread, rfl⟩

theorem node_receive (x : Execution) : x.receive.1.node = x.node := by
  simp only [receive]
  split
  · split
    · rfl
    · rfl
    · split
      · rfl
      · rfl
      · rfl
  · rfl

/-- What happens to the node does not depend on the pace at which the command reads. -/
theorem node_followAll (x : Execution) (moves : List Move) :
    (x.followAll moves).node = (x.node.run (happenings moves)).1 := by
  induction moves generalizing x with
  | nil => rfl
  | cons move rest ih =>
    cases move with
    | node event => exact ih (x.follow (.node event))
    | read => exact (ih (x.follow .read)).trans (by rw [follow, node_receive]; rfl)

/-! ### One move -/

theorem Notified.follow (notified : Notified x) (move : Move) : Notified (x.follow move) := by
  cases move with
  | node event => exact ⟨notified.ended, notified.told⟩
  | read =>
    simp only [Execution.follow, receive, notified.ended]
    exact notified

theorem Notified.followAll (notified : Notified x) (moves : List Move) :
    Notified (x.followAll moves) := by
  induction moves generalizing x with
  | nil => exact notified
  | cons move rest ih => exact ih (notified.follow move)

theorem Staying.read (staying : Staying x b notices offset) (trim : b.Trim) :
    ∃ later, Staying (x.follow .read) b notices later := by
  have enrolled : (x.follow .read).node.session.Enrolled := by
    rw [follow, node_receive]
    exact staying.enrolled
  cases receive_reading trim staying.reads with
  | waits _ same => exact ⟨offset, by rw [follow, same]; exact staying⟩
  | heeds _ _ _ _ reads => exact ⟨_, reads, enrolled, staying.warnings⟩
  | skips _ _ _ reads => exact ⟨_, reads, enrolled, staying.warnings⟩
  -- All that has been sent so far are warnings.
  | ends next ordered =>
    have warning := staying.warnings _ (List.mem_of_getElem? next)
    cases ordered.symm.trans warning

theorem Staying.step (staying : Staying x b notices offset) (calm : event.registers = false) :
    ((∀ order, ¬ x.node.Quits event order) ∧
      ∃ more, Staying (x.follow (.node event)) b more offset) ∨
    ((∃ order, x.node.Quits event order) ∧
      ∃ order, Parting (x.follow (.node event)) b notices order offset) := by
  have enrolled := Node.enrolled_step staying.enrolled calm
  have ⟨commands, within, follows⟩ := staying.reads
  have longer (order : HeartbeatReply) : offset ≤ (notices ++ [order]).length := by
    rw [List.length_append]
    omega
  cases Node.tells_step staying.enrolled event with
  | nothing stays same =>
    exact .inl ⟨stays, notices, ⟨same.trans commands, within, follows⟩, enrolled, staying.warnings⟩
  | @warns order stays notice sent =>
    have sentAll : (x.node.step event).1.session.commands = b.sendAll (notices ++ [order]) := by
      rw [sent, commands, Broadcast.sendAll_concat]
    refine .inl ⟨stays, notices ++ [order], ⟨sentAll, longer order, follows⟩, enrolled, ?_⟩
    intro warning member
    obtain old | new := List.mem_append.mp member
    · exact staying.warnings warning old
    · rw [List.mem_singleton.mp new, notice]
  | @quits order quits ordered sent expired =>
    have sentAll : (x.node.step event).1.session.commands = b.sendAll (notices ++ [order]) := by
      rw [sent, commands, Broadcast.sendAll_concat]
    exact .inr ⟨⟨order, quits⟩, order, ⟨sentAll, longer order, follows⟩, within, expired,
      staying.warnings, ordered⟩

/-- The news stays the latest. -/
theorem Parting.step (parting : Parting x b notices order offset)
    (calm : event.registers = false) :
    Parting (x.follow (.node event)) b notices order offset := by
  obtain ⟨expired, same⟩ := Node.expired_step parting.expired calm
  have ⟨commands, within, follows⟩ := parting.reads
  exact ⟨⟨same.trans commands, within, follows⟩, parting.unread, expired, parting.warnings,
    parting.ordered⟩

/-- The command reads the news, or comes closer to it. -/
theorem Parting.read (parting : Parting x b notices order offset) (trim : b.Trim) :
    Notified (x.follow .read) ∨
      ∃ later, Parting (x.follow .read) b notices order later ∧ offset < later ∧
        notices.length < later + Broadcast.capacity := by
  have expired : (x.follow .read).node.session.Expired := by
    rw [follow, node_receive]
    exact parting.expired
  have unread := parting.unread
  have goesOn {later : Nat} (reads : Reads (x.follow .read) b (notices ++ [order]) later)
      (before : later ≤ notices.length) : Parting (x.follow .read) b notices order later :=
    ⟨reads, before, expired, parting.warnings, parting.ordered⟩
  have length : (notices ++ [order]).length = notices.length + 1 := by simp
  cases receive_reading trim parting.reads with
  | waits caughtUp => omega
  | ends _ _ notified => exact .inl notified
  | @heeds other next different late _ reads =>
    -- What is read here is not the news.
    have before : offset < notices.length := by
      refine Nat.lt_of_le_of_ne unread fun last => different ?_
      rw [last, List.getElem?_concat_length] at next
      cases next
      exact parting.ordered
    exact .inr ⟨offset + 1, goesOn reads before, by omega, by omega⟩
  | @skips later behind oldest _ reads =>
    have before : later ≤ notices.length := by
      rw [length, Broadcast.capacity] at oldest
      omega
    exact .inr ⟨later, goesOn reads before, behind, by omega⟩

theorem Stands.follow (stands : Stands x b) (trim : b.Trim) {move : Move}
    (calm : ∀ event ∈ move.event?, event.registers = false) : Stands (x.follow move) b := by
  cases move with
  | node event =>
    have calm := calm event rfl
    cases stands with
    | staying staying =>
      obtain ⟨-, more, still⟩ | ⟨-, order, parting⟩ := staying.step calm
      · exact .staying still
      · exact .parting parting
    | parting parting => exact .parting (parting.step calm)
    | ended notified => exact .ended (notified.follow _)
  | read =>
    cases stands with
    | staying staying =>
      obtain ⟨later, still⟩ := staying.read trim
      exact .staying still
    | parting parting =>
      obtain notified | ⟨later, still, -⟩ := parting.read trim
      · exact .ended notified
      · exact .parting still
    | ended notified => exact .ended (notified.follow _)

/-! ### All moves -/

theorem calm_cons {move : Move} {rest : List Move}
    (calm : ∀ event ∈ happenings (move :: rest), event.registers = false) :
    (∀ event ∈ move.event?, event.registers = false) ∧
      ∀ event ∈ happenings rest, event.registers = false := by
  cases move with
  | node event => simpa [happenings, Move.event?] using calm
  | read => simpa [happenings, Move.event?] using calm

theorem Stands.followAll (stands : Stands x b) (trim : b.Trim)
    (calm : ∀ event ∈ happenings moves, event.registers = false) :
    Stands (x.followAll moves) b := by
  induction moves generalizing x with
  | nil => exact stands
  | cons move rest ih =>
    obtain ⟨now, later⟩ := calm_cons calm
    exact ih (stands.follow trim now) later

theorem Stands.notified (stands : Stands x b) (ended : x.hasEnded) : Notified x := by
  have goesOn {position : Nat} (follows : x.progress = .following position) : False := by
    simp [hasEnded, follows] at ended
  cases stands with
  | staying staying => exact (goesOn staying.reads.follows).elim
  | parting parting => exact (goesOn parting.reads.follows).elim
  | ended notified => exact notified

/-- While the node does not leave, the command reads on. -/
theorem Staying.followAll (staying : Staying x b notices offset) (trim : b.Trim)
    (calm : ∀ event ∈ happenings moves, event.registers = false)
    (stays : ¬ x.node.Departs (happenings moves)) :
    ∃ more later, Staying (x.followAll moves) b more later := by
  induction moves generalizing x notices offset with
  | nil => exact ⟨notices, offset, staying⟩
  | cons move rest ih =>
    obtain ⟨now, later⟩ := calm_cons calm
    cases move with
    | node event =>
      have stays : ¬ x.node.Departs (event :: happenings rest) := stays
      rw [Node.departs_cons, not_or] at stays
      obtain ⟨-, more, still⟩ | ⟨quits, -⟩ := staying.step (now event rfl)
      · exact ih still later stays.2
      · exact absurd quits stays.1
    | read =>
      obtain ⟨next, still⟩ := staying.read trim
      have same : (x.follow .read).node = x.node := node_receive x
      exact ih still later (by rw [same]; exact stays)

/-- Each reading brings the command closer to the news, and the first of them to within what is
kept. -/
theorem Parting.followAll (parting : Parting x b notices order offset) (trim : b.Trim)
    (calm : ∀ event ∈ happenings moves, event.registers = false)
    (enough : notices.length < offset + moves.countP Move.isRead ∨
      Broadcast.capacity < moves.countP Move.isRead) : Notified (x.followAll moves) := by
  induction moves generalizing x offset with
  | nil =>
    have unread := parting.unread
    simp only [List.countP_nil] at enough
    omega
  | cons move rest ih =>
    obtain ⟨now, later⟩ := calm_cons calm
    cases move with
    -- What happens to the node adds nothing to what is left to read.
    | node event => exact ih (parting.step (now event rfl)) later enough
    | read =>
      have one : (Move.read :: rest).countP Move.isRead = rest.countP Move.isRead + 1 :=
        List.countP_cons_of_pos rfl
      obtain notified | ⟨next, still, closer, near⟩ := parting.read trim
      · exact notified.followAll rest
      · exact ih still later (by omega)

theorem notified_of_departs (stands : Stands x b) (trim : b.Trim) {more : List Move}
    (calm : ∀ event ∈ happenings (moves ++ more), event.registers = false)
    (many : Broadcast.capacity < more.countP Move.isRead)
    (departs : x.node.Departs (happenings moves)) : Notified (x.followAll (moves ++ more)) := by
  induction moves generalizing x with
  | nil => simp [happenings, Node.Departs] at departs
  | cons move rest ih =>
    obtain ⟨now, later⟩ := calm_cons calm
    have next := stands.follow trim now
    cases move with
    | read =>
      have same : (x.follow .read).node = x.node := node_receive x
      exact ih next later (by rw [same]; exact departs)
    | node event =>
      have enough : Broadcast.capacity < (rest ++ more).countP Move.isRead := by
        rw [List.countP_append]
        omega
      obtain ⟨order, quits⟩ | departs := Node.departs_cons.mp departs
      -- The node leaves now, so the news is the last that is sent.
      · cases stands with
        | staying staying =>
          obtain ⟨stays, -⟩ | ⟨-, order, parting⟩ := staying.step (now event rfl)
          · exact absurd quits (stays order)
          · exact parting.followAll trim later (.inr enough)
        | parting parting => exact (parting.step (now event rfl)).followAll trim later (.inr enough)
        | ended notified => exact notified.followAll (.node event :: rest ++ more)
      · exact ih next later departs

/-! ### From a registration on -/

theorem staying_of_subscribed (subscribed : Subscribed x) :
    Staying x x.node.session.commands [] 0 ∧ x.node.session.commands.Trim := by
  obtain ⟨options, world, past, event, job, address, orderly, returned, reached⟩ :=
    subscribed.returned
  have settled := Node.settled_run (Session.settled_fresh options world) orderly
  have unasked := subscribed.unasked
  have trim := Node.trim_run options world (past ++ [event])
  rw [Node.run_concat] at trim
  rw [reached] at unasked
  refine ⟨⟨⟨rfl, Nat.le_refl 0, subscribed.follows⟩, ?_, nofun⟩, ?_⟩
  · rw [reached]
    exact Node.enrolled_of_returned settled returned unasked
  · rw [reached]
    exact trim

/-- A command that has ended has learned that the node has left. -/
theorem notified_of_ended (subscribed : Subscribed x)
    (calm : ∀ event ∈ happenings moves, event.registers = false)
    (ended : (x.followAll moves).hasEnded) :
    x.node.Departs (happenings moves) ∧ Notified (x.followAll moves) := by
  obtain ⟨staying, trim⟩ := staying_of_subscribed subscribed
  refine ⟨?_, (Stands.followAll (.staying staying) trim calm).notified ended⟩
  -- Had the node not left, the command would be following still.
  by_contra stays
  obtain ⟨more, later, still⟩ := staying.followAll trim calm stays
  simp [hasEnded, still.reads.follows] at ended

/-- Once the node has left, the command ends after it has read on as often as there are values kept,
and once more. -/
theorem hasEnded_of_departs (subscribed : Subscribed x) {more : List Move}
    (calm : ∀ event ∈ happenings moves, event.registers = false)
    (calmMore : ∀ event ∈ happenings more, event.registers = false)
    (many : Broadcast.capacity < more.countP Move.isRead)
    (departs : x.node.Departs (happenings moves)) : (x.followAll (moves ++ more)).hasEnded := by
  obtain ⟨staying, trim⟩ := staying_of_subscribed subscribed
  have calmAll : ∀ event ∈ happenings (moves ++ more), event.registers = false := by
    rw [happenings, List.filterMap_append]
    exact List.forall_mem_append.mpr ⟨calm, calmMore⟩
  have notified := notified_of_departs (.staying staying) trim calmAll many departs
  simp [hasEnded, notified.ended]

/-- Unless the user gives the identity up, the node leaves just when it has done so itself. -/
theorem departs_iff_unregistersItself (subscribed : Subscribed x)
    (calm : ∀ event ∈ happenings moves, event.registers = false)
    (kept : ∀ job wait, x.node.session.jobs.get? job ≠ some (.revoking wait))
    (keeps : ∀ event ∈ happenings moves, event.unregisters = false) :
    x.node.Departs (happenings moves) ↔ x.node.UnregistersItself (happenings moves) := by
  constructor
  · have enrolled := (staying_of_subscribed subscribed).1.enrolled
    obtain ⟨options, world, past, event, job, address, orderly, returned, reached⟩ :=
      subscribed.returned
    have settled := Node.settled_run (Session.settled_fresh options world) orderly
    rw [reached] at kept enrolled ⊢
    exact Node.unregistersItself_of_departs enrolled
      (Node.tenured_of_returned settled returned kept) calm keeps
  · rintro ⟨before, event, after, split, order, ordered, seen, sees, leaves⟩
    exact ⟨before, event, after, split, order, ordered, seen, sees, .leaves leaves⟩

/-- A command that follows from a registration on, and until the next one begins, ends only with the
departure of the node, and with the news of that, whatever it has missed at its own pace. Once the
node has left, the command ends after it has read on as often as there are values kept, and once
more. Unless the user gives the identity up, the node leaves just when it has done so itself. -/
theorem ends_with_departure (subscribed : Subscribed x)
    (calm : ∀ event ∈ happenings moves, event.registers = false) :
    ((x.followAll moves).hasEnded →
      x.node.Departs (happenings moves) ∧ Notified (x.followAll moves)) ∧
    (∀ more, (∀ event ∈ happenings more, event.registers = false) →
      Broadcast.capacity < more.countP Move.isRead → x.node.Departs (happenings moves) →
        (x.followAll (moves ++ more)).hasEnded) ∧
    ((∀ job wait, x.node.session.jobs.get? job ≠ some (.revoking wait)) →
      (∀ event ∈ happenings moves, event.unregisters = false) →
        (x.node.Departs (happenings moves) ↔ x.node.UnregistersItself (happenings moves))) := by
  refine ⟨fun ended => ?_, fun more calmMore many departs => ?_, fun kept keeps => ?_⟩
  · exact notified_of_ended subscribed calm ended
  · exact hasEnded_of_departs subscribed calm calmMore many departs
  · exact departs_iff_unregistersItself subscribed calm kept keeps

/-- A node that is a server. -/
def serving : Configuration :=
  { Configuration.standard with node := { NodeOptions.standard with server := some .standard } }

/-- The directory grants number seven. -/
def enlisted : Node.Event := .answer 0 (Session.grant 7 1007)

/-- The command has registered the server, and follows the directory. -/
def follower : Execution :=
  ((start serving .register Session.stillWorld).1.run
    [.node (.dialed registerJob (.ok ())), .node enlisted]).1

/-- A heartbeat, and the command that the directory answers it with. -/
def round (call : Nat) (order : DirectoryCommand) : List Move :=
  [.node (.elapse 5000), .node (.session (.wake 0)),
    .node (.answer call (Session.command order))]

/-- While the command does not read, providers are lost in seventeen rounds, and then the node is
ordered to leave its exchange and does so. -/
def eventful : List Move :=
  .node (.session (.wake 0)) ::
    (List.range 17).flatMap (fun past => round (past + 1) .providerDisconnect) ++
    round 18 .serverChange ++ [.node (.answer 19 (.ok (.ack .done)))]

/-- The command learns that it has missed two notices, and reads the sixteen that are left. -/
def catchUp : List Move := List.replicate 17 .read

theorem ends_with_departure_eventful :
    (Subscribed follower ∧ (∀ event ∈ happenings eventful, event.registers = false) ∧
        ∀ event ∈ happenings eventful, event.unregisters = false) ∧
      (follower.followAll eventful).node.session.commands.sent = 18 ∧
      (follower.followAll eventful).node.session.commands.kept.length = 16 ∧
      follower.node.UnregistersItself (happenings eventful) ∧
      (follower.followAll (eventful ++ catchUp)).hasEnded ∧
      Notified (follower.followAll (eventful ++ catchUp)) := by
  have idle : follower.node.session.jobs = .empty := by decide
  have subscribed : Subscribed follower := by
    refine ⟨⟨serving.keepAlive, Session.stillWorld,
      [.session (.dial registerJob "127.0.0.1:9990" (.ofNode "agora-node" [] (some .standard))),
        .dialed registerJob (.ok ())],
      enlisted, registerJob, "127.0.0.1:10000", by decide, by decide, rfl⟩, ?_, rfl⟩
    intro job work found
    rw [idle] at found
    cases found
  have calm : ∀ event ∈ happenings eventful, event.registers = false := by decide +kernel
  have calmAll : ∀ event ∈ happenings (eventful ++ catchUp), event.registers = false := calm
  have keeps : ∀ event ∈ happenings eventful, event.unregisters = false := by decide +kernel
  obtain ⟨told, -⟩ := ends_with_departure subscribed calmAll
  obtain ⟨-, ends, itself⟩ := ends_with_departure subscribed calm
  obtain ⟨departs, notified⟩ := told (by decide +kernel)
  have departs : follower.node.Departs (happenings eventful) := departs
  refine ⟨⟨subscribed, calm, keeps⟩, by decide +kernel, by decide +kernel, ?_, ?_, notified⟩
  · exact (itself (by simp [idle]) keeps).mp departs
  · exact ends catchUp (by decide) (by decide) departs

end ExchangeNode.Execution
