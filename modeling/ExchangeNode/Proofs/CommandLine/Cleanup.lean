import ExchangeNode.Proofs.CommandLine.Ledger

/-!
# A command leaves nothing behind

A command that advertises or watches registers a node, and then much can go wrong: the exchange may
be out of reach, the advert may be refused, the stream may break off, and so may the last call, with
which the registration is given up.

`command_settles` says for every such command, and for all that the directory and the exchange may
do short of sending the node elsewhere, what the command has asked of the directory when it has
ended, and with which failure it ends. One registration is not given up: that of an identity whose
secret is zero, which counts as given up from the start.
-/

namespace ExchangeNode

/-- The channel that a command is told to work on. -/
def Command.asked? : Command → Option UInt32
  | .register => none
  | .advertise _ _ _ asked => asked
  | .watch _ asked _ => asked

namespace Execution

/-- All identities that the node of a command is granted in a run, in order. -/
def granted (x : Execution) : List Event → List Identity
  | [] => []
  | event :: rest => (x.world? event).elim [] x.node.grants ++ (x.step event).1.granted rest

/-- All failures of what a command has its node do, in order, but for giving the registration up. -/
def failed (x : Execution) : List Event → List NodeError
  | [] => []
  | event :: rest =>
    (x.world? event).elim [] (fun event => failures (x.node.step event).2) ++
      (x.step event).1.failed rest

/-- Every event of a run is allowed where it happens. -/
def Throughout (allowed : Execution → Event → Prop) (x : Execution) : List Event → Prop
  | [] => True
  | event :: rest => allowed x event ∧ Throughout allowed (x.step event).1 rest

instance decidableThroughout {allowed : Execution → Event → Prop}
    [∀ x event, Decidable (allowed x event)] (x : Execution) :
    (events : List Event) → Decidable (Throughout allowed x events)
  | [] => .isTrue trivial
  | event :: rest =>
    have : Decidable (Throughout allowed (x.step event).1 rest) :=
      decidableThroughout (x.step event).1 rest
    inferInstanceAs (Decidable (_ ∧ _))

variable {x : Execution} {registration : Registration} {identity : Identity}
  {asked : List Registration} {given granted : List Identity} {failed : List NodeError}

/-! ### A whole run -/

theorem run_cons (x : Execution) (event : Event) (rest : List Event) :
    x.run (event :: rest) =
      (((x.step event).1.run rest).1, (x.step event).2 ++ ((x.step event).1.run rest).2) := rfl

theorem run_append (x : Execution) (first more : List Event) :
    x.run (first ++ more) =
      (((x.run first).1.run more).1, (x.run first).2 ++ ((x.run first).1.run more).2) := by
  induction first generalizing x with
  | nil => rfl
  | cons event rest ih => simp [run_cons, ih]

theorem accounts_run (works : x.command ≠ .register)
    (ledger : Ledger registration x asked given granted failed) {events : List Event}
    (spared : Throughout Spared x events) :
    Accounts registration asked given (granted ++ x.granted events) (failed ++ x.failed events)
      (x.run events) := by
  induction events generalizing x asked given granted failed with
  | nil =>
    simp only [Execution.granted, Execution.failed, List.append_nil]
    exact .of_quiet works rfl rfl ledger
  | cons event rest ih =>
    have first := accounts_step works ledger spared.1
    have ⟨works, ledger⟩ := ih first.works first.ledger spared.2
    refine ⟨works, ?_⟩
    rw [run_cons, Session.registrations_append, Session.revocations_append, Execution.granted,
      Execution.failed]
    simp only [← List.append_assoc]
    exact ledger

theorem run_of_ended {failure : Option NodeError} (isOver : x.progress = .ended failure)
    (events : List Event) : x.run events = (x, []) := by
  induction events with
  | nil => rfl
  | cons event rest ih =>
    have still : x.step event = (x, []) := by simp only [step, isOver]
    rw [run_cons, still, ih]
    rfl

/-- What can be read off the books at any time, and in the end. -/
theorem settles_of_ledger (ledger : Ledger registration x asked given granted failed) :
    (asked = [] ∨ asked = [registration]) ∧ granted.length ≤ 1 ∧ given.length ≤ 1 ∧
      (x.hasEnded → given = granted.filter Identity.isLive ∧ x.failure? = failed.head?) := by
  have lives {progress : Progress} (now : x.progress = progress)
      (other : ∀ failure, progress ≠ .ended failure) : ¬ x.hasEnded := by
    subst now
    cases isOver : x.progress with
    | ended failure => exact absurd isOver (other failure)
    | _ => simp [hasEnded, isOver]
  cases ledger with
  | registering progress free applying =>
    exact ⟨applying.few, Nat.zero_le 1, Nat.zero_le 1,
      fun isOver => absurd isOver (lives progress (by simp))⟩
  | opening progress | operating progress =>
    exact ⟨.inr rfl, Nat.le_refl 1, Nat.zero_le 1,
      fun isOver => absurd isOver (lives progress (by simp))⟩
  | leaving progress =>
    exact ⟨.inr rfl, Nat.le_refl 1, Nat.le_refl 1,
      fun isOver => absurd isOver (lives progress (by simp))⟩
  | ended progress few once first =>
    refine ⟨few, once, Nat.le_trans (List.length_filter_le _ _) once, fun _ => ⟨rfl, ?_⟩⟩
    simp only [failure?, progress, first]

theorem accounts_register {command : Command} (works : command ≠ .register)
    (configuration : Configuration) (channel : UInt32) (world : Surroundings)
    (channelTypes : List UInt32) :
    Accounts (.ofNode configuration.node.name channelTypes configuration.node.server) [] [] [] []
      ((fresh configuration command channel world).register channelTypes) := by
  refine .of_quiet works rfl rfl (.registering rfl (fun _ => rfl) ⟨.inl rfl, fun _ => rfl, rfl, ?_⟩)
  intro job work found
  obtain ⟨rfl, rfl⟩ | ⟨-, before⟩ := Table.of_get?_set found
  · exact ⟨rfl, .inl ⟨_, rfl, rfl⟩⟩
  · cases before

theorem start_of_works {command : Command} (works : command ≠ .register)
    (configuration : Configuration) (world : Surroundings) :
    start configuration command world =
      registerFor configuration command command.asked? world := by
  cases command with
  | register => exact absurd rfl works
  | advertise | watch => rfl

/-- A command that advertises or watches contacts nobody if there is no channel to work on. Else it
registers at most once, for that channel too. When it has ended it has given up every registration
that was granted, once and no other, unless its identity counts as given up from the start. It
returns the first failure, and a failure to give the registration up is none. -/
theorem command_settles (configuration : Configuration) (command : Command) (world : Surroundings)
    (works : command ≠ .register) (events : List Event)
    (spared : Throughout Spared (start configuration command world).1 events) :
    let began := start configuration command world
    let ended := began.1.run events
    let effects := began.2 ++ ended.2
    match channel? configuration command.asked? with
    | none => effects = [] ∧ ended.1.hasEnded ∧ ended.1.failure? = some noChannel
    | some channel =>
      let registration : Registration := .ofNode configuration.node.name
        (withChannel configuration.node.channelTypes channel) configuration.node.server
      (Session.registrations effects = [] ∨ Session.registrations effects = [registration]) ∧
        (began.1.granted events).length ≤ 1 ∧ (Session.revocations effects).length ≤ 1 ∧
        (ended.1.hasEnded →
          Session.revocations effects = (began.1.granted events).filter Identity.isLive ∧
            ended.1.failure? = (began.1.failed events).head?) := by
  intro began ended effects
  have begins : began = registerFor configuration command command.asked? world :=
    start_of_works works configuration world
  cases resolved : channel? configuration command.asked? with
  | none =>
    have concluded : began =
        (fresh configuration command 0 world).conclude none (some noChannel) := by
      rw [begins]
      simp only [registerFor, resolved]
    have isOver : began.1.progress = .ended (some noChannel) := by
      rw [concluded]
      rfl
    have still : ended = (began.1, []) := run_of_ended isOver events
    simp only [effects, still, concluded]
    exact ⟨rfl, rfl, rfl⟩
  | some channel =>
    have accounts : Accounts (.ofNode configuration.node.name
        (withChannel configuration.node.channelTypes channel) configuration.node.server)
        [] [] [] [] began := by
      rw [begins]
      simp only [registerFor, resolved]
      exact accounts_register works configuration channel world _
    have ⟨_, ledger⟩ := accounts_run accounts.works accounts.ledger spared
    simp only [List.nil_append, ← Session.registrations_append, ← Session.revocations_append]
      at ledger
    exact settles_of_ledger ledger

/-- The directory is reached and grants an identity, and then the exchange is reached. -/
def setOut (secret : UInt64) : List Event :=
  [.node (.dialed registerJob (.ok ())), .node (.answer 0 (Session.grant 7 secret)),
    .node (.dialed openJob (.ok ()))]

/-- The exchange refuses the advert, and the directory is lost while the node leaves it. -/
def turnedAway : List Event :=
  setOut 1007 ++ [.node (.answer 1 (.ok (.ack ⟨false, "full"⟩))),
    .node (.answer 2 (.error .connectionClosed)), .node (.session (.wake 0)),
    .node (.session (.proceed leaveJob))]

/-- A node that offers a ride. -/
def offering : Turn :=
  start .standard (.advertise .supply "ride" "" (some 10)) Session.stillWorld

theorem command_settles_turnedAway :
    let ended := offering.1.run turnedAway
    let effects := offering.2 ++ ended.2
    let registration : Registration := .ofNode "agora-node" [10] none
    (Command.advertise .supply "ride" "" (some 10) ≠ .register ∧
        Throughout Spared offering.1 turnedAway) ∧
      (Session.registrations effects = [] ∨ Session.registrations effects = [registration]) ∧
      offering.1.granted turnedAway = [Session.granted 7 1007] ∧ ended.1.hasEnded ∧
      Session.revocations effects = [Session.granted 7 1007] ∧
      ended.1.failure? = some (.rejected "full") := by
  intro ended effects registration
  have spared : Throughout Spared offering.1 turnedAway := by decide
  have isOver : ended.1.hasEnded := by decide
  have granted : offering.1.granted turnedAway = [Session.granted 7 1007] := by decide
  have failed : offering.1.failed turnedAway = [.rejected "full"] := by decide
  obtain ⟨few, -, -, settled⟩ := command_settles .standard (.advertise .supply "ride" "" (some 10))
    Session.stillWorld nofun turnedAway spared
  obtain ⟨gives, fails⟩ := settled isOver
  refine ⟨⟨nofun, spared⟩, few, granted, isOver, gives.trans ?_, fails.trans ?_⟩
  · exact congrArg (List.filter Identity.isLive) granted
  · exact congrArg List.head? failed

/-- The directory grants an identity that counts as given up, and the advert goes well. The
registration is never given up. -/
theorem worthless_secret_is_kept :
    let events := setOut 0 ++ [.node (.answer 1 (.ok (.ack .done)))]
    let ended := offering.1.run events
    Throughout Spared offering.1 events ∧ offering.1.granted events = [Session.granted 7 0] ∧
      ended.1.hasEnded ∧ ended.1.failure? = none ∧
      Session.revocations (offering.2 ++ ended.2) = [] := by
  decide

end Execution

end ExchangeNode
