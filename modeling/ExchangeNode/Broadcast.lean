/-!
# Broadcast with a bounded memory

Every value goes to all receivers, each of which reads at its own pace. The newest values are kept;
a receiver that falls further behind is told how many it has missed and goes on with the
oldest value still kept.
-/

namespace ExchangeNode

structure Broadcast (α : Type) where
  /-- How many values have been sent. -/
  sent : Nat
  /-- The newest values, latest first. -/
  kept : List α
  deriving DecidableEq, Repr

/-- What a receiver gets next. -/
inductive Reception (α : Type) where
  | value (a : α)
  | missed (count : Nat)
  deriving DecidableEq, Repr

namespace Broadcast

variable {α : Type}

def capacity : Nat := 16

def empty : Broadcast α := ⟨0, []⟩

instance : Inhabited (Broadcast α) := ⟨empty⟩

def send (b : Broadcast α) (a : α) : Broadcast α := ⟨b.sent + 1, (a :: b.kept).take capacity⟩

/-- Where a new receiver starts: after all values sent so far. -/
def subscribe (b : Broadcast α) : Nat := b.sent

/-- What a receiver that has come to `position` gets next, and the position after it. -/
def receive (b : Broadcast α) (position : Nat) : Option (Reception α × Nat) :=
  let oldest := b.sent - b.kept.length
  if position < oldest then some (.missed (oldest - position), oldest)
  else if position < b.sent then
    b.kept[b.sent - 1 - position]?.map fun a => (.value a, position + 1)
  else none

/-- All that a receiver gets until it has caught up. -/
def drain (b : Broadcast α) (position : Nat) : List (Reception α) :=
  let oldest := b.sent - b.kept.length
  let missed := if position < oldest then [.missed (oldest - position)] else []
  missed ++ ((b.kept.take (b.sent - position)).reverse.map .value)

/-! ### What becomes of a value that is sent -/

theorem receive_subscribe (b : Broadcast α) : b.receive b.subscribe = none := by
  have oldest : ¬ b.sent < b.sent - b.kept.length := by omega
  simp [receive, subscribe, oldest]

/-- A receiver that has caught up gets the value next, and nothing after it. -/
theorem receive_send (b : Broadcast α) (a : α) :
    (b.send a).receive b.subscribe = some (.value a, (b.send a).subscribe) := by
  simp [receive, send, subscribe, capacity]

/-- However far a receiver has fallen behind, the value is the last that it gets. -/
theorem getLast?_drain_send (b : Broadcast α) (a : α) {position : Nat}
    (within : position ≤ b.sent) :
    ((b.send a).drain position).getLast? = some (.value a) := by
  have unread : b.sent + 1 - position = b.sent - position + 1 := by omega
  simp [drain, send, unread, capacity]

end Broadcast

end ExchangeNode
