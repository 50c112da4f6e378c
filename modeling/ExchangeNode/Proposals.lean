import ExchangeNode.Exchange.Basic

/-!
# Proposals in flight

A node with proposals that wait for an answer is not safe to move to another exchange. When it has
to move all the same it is locked, and takes no adverts until the lock is released.
-/

namespace ExchangeNode

structure Proposals where
  supplies : List Supply
  demands : List Demand
  locked : Bool
  deriving DecidableEq, Repr

namespace Proposals

/-- Nothing is proposed and nothing locked. -/
def empty : Proposals := ⟨[], [], false⟩

instance : Inhabited Proposals := ⟨empty⟩

def isSafe (p : Proposals) : Bool := p.supplies.isEmpty && p.demands.isEmpty

/-- How many supplies and how many demands are in flight. -/
def pending (p : Proposals) : Nat × Nat := (p.supplies.length, p.demands.length)

def lock (p : Proposals) : Proposals := { p with locked := true }

def track {side : Side} (p : Proposals) (advert : Advert side) : Proposals :=
  match side with
  | .supply => { p with supplies := p.supplies ++ [advert] }
  | .demand => { p with demands := p.demands ++ [advert] }

/-- Whether a proposal has the id. -/
def tracks (p : Proposals) (id : UInt64) : Bool :=
  p.supplies.any (·.id == id) || p.demands.any (·.id == id)

/-- Drop the first proposal with the id, a supply before a demand. -/
def retire (p : Proposals) (id : UInt64) : Proposals :=
  if p.supplies.any (·.id == id) then { p with supplies := p.supplies.eraseP (·.id == id) }
  else { p with demands := p.demands.eraseP (·.id == id) }

end Proposals

end ExchangeNode
