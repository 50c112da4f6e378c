import ExchangeNode.Proofs.Session.Loops

/-!
# How proposals come to leave

A session forgets its proposals when it takes on an identity, when the node has left its exchange,
and when a lock is released. The last two go back to an order of the directory: a loop that obeys
one gives the identity up before it forgets, or arms the release.
-/

namespace ExchangeNode

namespace Proposals

/-- How many proposals with an id are in flight. -/
def copies (p : Proposals) (id : UInt64) : Nat :=
  p.supplies.countP (·.id == id) + p.demands.countP (·.id == id)

@[simp] theorem copies_empty (id : UInt64) : empty.copies id = 0 := rfl

theorem copies_le_track {side : Side} (p : Proposals) (advert : Advert side) (id : UInt64) :
    p.copies id ≤ (p.track advert).copies id := by
  cases side with
  | supply =>
    simp only [copies, track, List.countP_append]
    omega
  | demand =>
    simp only [copies, track, List.countP_append]
    omega

theorem copies_of_isSafe {p : Proposals} (safe : p.isSafe) (id : UInt64) : p.copies id = 0 := by
  simp only [isSafe, Bool.and_eq_true, List.isEmpty_iff] at safe
  simp [copies, safe]

theorem countP_eraseP {side : Side} (adverts : List (Advert side)) {id other : UInt64}
    (different : other ≠ id) :
    (adverts.eraseP (·.id == other)).countP (·.id == id) = adverts.countP (·.id == id) := by
  induction adverts with
  | nil => rfl
  | cons advert rest ih =>
    by_cases same : advert.id = other
    · simp [same, different]
    · simp [same, List.countP_cons, ih]

theorem copies_retire {p : Proposals} {id other : UInt64} (different : other ≠ id) :
    (p.retire other).copies id = p.copies id := by
  simp only [retire]
  split
  · simp only [copies, countP_eraseP _ different]
  · simp only [copies, countP_eraseP _ different]

end Proposals

namespace Session

/-- A loop hears that the identity was given up, as it was ordered. -/
def Leaves (s : Session) (event : Event) (order : HeartbeatReply) : Prop :=
  ∃ loop l wait reply, s.loopHears? event = some (loop, l, reply) ∧ l.stage = .moving wait order

variable {s : Session} {event : Event} {turn : Turn}

theorem judge_keepAlive {reply : Option Reply} {order : HeartbeatReply}
    (answered : judge .keepAlive reply = .ok order) : reply = some (.ok (.heartbeat order)) := by
  match reply, answered with
  | some (.ok (.heartbeat other)), answered =>
    cases answered
    rfl

/-- The loop waits for its heartbeat, and the event is the answer to that. -/
theorem obeys_spec {order : HeartbeatReply} (obeys : Obeys s event order) :
    ∃ loop l wait, s.loops.get? loop = some l ∧ l.stage = .beating wait ∧
      event = .answer wait.call (.ok (.heartbeat order)) ∧ order.command = .serverChange := by
  obtain ⟨loop, l, wait, reply, hears, beating, answered, ordered⟩ := obeys
  obtain ⟨found, waited, waits, heard⟩ := loopHears?_spec hears
  rw [beating] at waits
  cases waits
  rw [judge_keepAlive answered] at heard
  refine ⟨loop, l, wait, found, beating, ?_, ordered⟩
  cases event with
  | answer =>
    cases heard
    rfl
  -- A call that was given up brings no order.
  | timeout =>
    simp only [heard?] at heard
    split at heard <;> cases heard
  | _ => cases heard

/-- Why a step with these effects lets proposals with an id go. -/
inductive Loses (s : Session) (id : UInt64) (effects : List Effect) : Event → Prop where
  | retires : Loses s id effects (.retire id)
  | resets : Loses s id effects .reset
  | registers {event job address} (returned : .finish job (.exchange address) ∈ effects) :
      Loses s id effects event
  | leaves {event order} (leaves : Leaves s event order) : Loses s id effects event
  | releases {due} (pending : s.release = some due) : Loses s id effects .release

theorem loses_course {id : UInt64} (course : Course s event turn)
    (lost : turn.1.proposals.copies id < s.proposals.copies id) : Loses s id turn.2 event := by
  cases course with
  | adopts => exact .registers List.mem_cons_self
  | @retires other =>
    by_cases same : other = id
    · subst same
      exact .retires
    · rw [Proposals.copies_retire same] at lost
      exact absurd lost (Nat.lt_irrefl _)
  | resets => exact .resets
  | releases pending => exact .releases pending
  | leaves hears moving => exact .leaves ⟨_, _, _, _, hears, moving⟩
  -- Only with nothing in flight does the node move without telling the directory.
  | movesAtOnce _ _ _ _ safe =>
    rw [Proposals.copies_of_isSafe safe id] at lost
    exact absurd lost (Nat.not_lt_zero _)
  | tracks => exact absurd lost (Nat.not_lt.mpr (Proposals.copies_le_track _ _ id))
  | _ => exact absurd lost (Nat.lt_irrefl _)

/-- When a registration returns, nothing is in flight or locked, and the current loop is yet to
begin. -/
theorem adopted_of_returned (course : Course s event turn) {job : Nat} {address : String}
    (returned : .finish job (.exchange address) ∈ turn.2) :
    turn.1.proposals = .empty ∧ ∀ k l, turn.1.current = some k → turn.1.loops.get? k = some l →
      l.stage = .starting := by
  obtain ⟨wait, directory, registration, reply, identity, -, rfl⟩ :=
    adopts_of_returned course returned
  refine ⟨rfl, fun k l isCurrent found => ?_⟩
  cases isCurrent
  simp only [finish, startLoop, Table.get?_set, if_true] at found
  cases found
  rfl

/-- A step arms a release only in obedience to an order. -/
theorem release_course (course : Course s event turn) {due : Nat}
    (pending : turn.1.release = some due) :
    s.release = some due ∨ ∃ order, Obeys s event order := by
  cases course with
  | defers hears beating answered ordered =>
    exact .inr ⟨_, _, _, _, _, hears, beating, answered, ordered⟩
  -- Whoever tells a loop to stop has called the release off before.
  | clears | applies | stops | stopsAtOnce | revokes | revokesAtLast | releases => cases pending
  | _ => exact .inl pending

end Session

end ExchangeNode
