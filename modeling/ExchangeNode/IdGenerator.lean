import ExchangeNode.NodeError
import ExchangeNode.Timestamp.Basic

/-!
# Identifiers in the order of time

An id holds, from its top bit down: a zero bit, 41 bits of milliseconds since the start of 2020, ten
bits of node number and twelve bits of sequence. The generator's own clock never goes back: where
the wall clock stands still or goes back the sequence counts on, and where the sequence is used up
the generator borrows the next millisecond. Node numbers come and go; clock and sequence stay, so
two ids issued under one node number always differ.
-/

namespace ExchangeNode

/-- The start of 2020 in Unix milliseconds. -/
def idEpoch : Nat := 1577836800000

structure IdGenerator where
  /-- Absent while no ids may be issued. -/
  node : Option (Fin 1024)
  lastMs : Nat
  sequence : Fin 4096
  deriving DecidableEq, Repr

namespace IdGenerator

def unseeded : IdGenerator := ⟨none, 0, 0⟩

instance : Inhabited IdGenerator := ⟨unseeded⟩

def nodeNumber (n : Int) : Except NodeError (Fin 1024) :=
  if h : 0 ≤ n ∧ n < 1024 then .ok ⟨n.toNat, by omega⟩ else .error (.invalidNodeNumber n)

def seeded (n : Int) : Except NodeError IdGenerator :=
  (nodeNumber n).map fun node => { unseeded with node := some node }

/-- Issue ids under another node number. An invalid number changes nothing. -/
def reseed (g : IdGenerator) (n : Int) : IdGenerator :=
  match nodeNumber n with
  | .ok node => { g with node := some node }
  | .error _ => g

/-- Whether the number is one to issue ids under. -/
def accepts (n : Int) : Bool := (nodeNumber n).toBool

def clear (g : IdGenerator) : IdGenerator := { g with node := none }

/-- The generator's clock for a wall clock in Unix milliseconds. -/
def milliseconds (clock : Int) : Nat := clock.toNat - idEpoch

/-- Move on to the time and sequence of the next id. -/
def advance (g : IdGenerator) (clock : Int) : IdGenerator :=
  let now := milliseconds clock
  if g.lastMs < now then { g with lastMs := now, sequence := 0 }
  else if h : g.sequence.val < 4095 then { g with sequence := ⟨g.sequence.val + 1, by omega⟩ }
  else { g with lastMs := g.lastMs + 1, sequence := 0 }

/-- The id with the given parts. -/
def pack (ms : Nat) (node : Fin 1024) (sequence : Fin 4096) : UInt64 :=
  UInt64.ofNat (((ms % (1 <<< 41)) <<< 22) + (node.val <<< 12) + sequence.val)

def generate (g : IdGenerator) (clock : Int) : Except NodeError (UInt64 × IdGenerator) :=
  match g.node with
  | none => .error .notRegistered
  | some node =>
    let g := g.advance clock
    .ok (pack g.lastMs node g.sequence, g)

theorem node_advance (g : IdGenerator) (clock : Int) : (g.advance clock).node = g.node := by
  simp only [advance]
  split
  · rfl
  · split <;> rfl

theorem node_of_generate {g ids : IdGenerator} {clock : Int} {id : UInt64}
    (issued : g.generate clock = .ok (id, ids)) : ids.node = g.node := by
  simp only [generate] at issued
  split at issued
  · cases issued
  · obtain ⟨-, rfl⟩ := Prod.mk.inj (Except.ok.inj issued)
    exact node_advance g clock

end IdGenerator

/-- The node number in an id. -/
def nodeOfId (id : UInt64) : Nat := (id.toNat >>> 12) % 1024

/-- The time in an id. -/
def timeOfId? (id : UInt64) : Option Timestamp :=
  Timestamp.ofUnixMillis? ((id.toNat >>> 22) + idEpoch : Nat)

end ExchangeNode
