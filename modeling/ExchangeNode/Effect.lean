import ExchangeNode.NodeError
import ExchangeNode.Wire.Response

/-!
# What a node asks of the world

A node acts on the world only by effects. Its operations run as numbered jobs, its remote calls are
numbered too, and the world answers under these numbers.
-/

namespace ExchangeNode

/-- How a job ends. -/
inductive Outcome where
  | done
  /-- Registered; the exchange that was assigned. -/
  | exchange (address : String)
  | name (name : String)
  | issued (id : UInt64)
  | bus (bus : Bus)
  | busState (state : BusState)
  | failed (error : NodeError)
  deriving DecidableEq, Repr

inductive Effect where
  /-- Open a connection on behalf of a job. -/
  | dial (job : Nat) (address : String)
  | call (call : Nat) (request : Request)
  /-- Ask for the next item of a subscription. -/
  | pull (job : Nat)
  | deliver (job : Nat) (item : Item)
  | finish (job : Nat) (outcome : Outcome)
  deriving DecidableEq, Repr

end ExchangeNode
