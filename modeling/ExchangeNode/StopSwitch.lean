/-!
# Stop switches

A subscription is called off by a switch. Whoever holds the switch may turn it on and off until they
let go of it. From then on it stays as it is: one that is on goes on to call the subscription off,
one that is off never will.
-/

namespace ExchangeNode

structure StopSwitch where
  on : Bool
  /-- Whether there is still someone to turn it. -/
  held : Bool
  deriving DecidableEq, Repr

namespace StopSwitch

/-- What is done to a switch. -/
inductive Signal where
  | turn (on : Bool)
  | letGo
  deriving DecidableEq, Repr

/-- A switch as it is handed out. -/
def off : StopSwitch := ⟨false, true⟩

def after (s : StopSwitch) : Signal → StopSwitch
  | .turn on => if s.held then { s with on } else s
  | .letGo => { s with held := false }

/-- What it comes to so far to wait until a switch is on, which fails once nobody can turn it on. -/
def wait? (s : StopSwitch) : Option (Except Unit Unit) :=
  if s.on then some (.ok ()) else if s.held then none else some (.error ())

/-- Whether a switch calls off. A failed wait does not, but goes on for ever. -/
def callsOff (s : StopSwitch) : Bool :=
  match s.wait? with
  | some (.ok ()) => true
  | some (.error ()) => false
  | none => false

end StopSwitch

end ExchangeNode
