import ExchangeNode.CommandLine.Execution
import ExchangeNode.Rehearsal.Run

/-!
# Rehearsing a command

A command reads the directory commands that have come for it as soon as it can. Its user may
interrupt it once a certain method has been called and everything else waits.
-/

namespace ExchangeNode

instance : Performer Execution where
  node := Execution.node
  step x event := x.step (.node event)
  initiative? x := if x.canReceive then some (x.step .receive) else none

/-- What happens to a command beside the answers to its calls. -/
structure Circumstances where
  /-- The method after whose call the command is interrupted. -/
  interrupt : Option Method
  /-- How many times a second is let pass when everything waits. -/
  seconds : Nat

namespace Rehearsal

/-- Let time pass as far as the next thing that is due, but not beyond a limit. -/
def passTime (r : Rehearsal Execution) (limit : Option Nat) : Option (Rehearsal Execution) :=
  match r.nextTime?.or limit with
  | none => none
  | some next =>
    let time := limit.elim next (min next)
    if r.now < time then some (r.turn (.elapse (time - r.now))) else none

def waitUntil (r : Rehearsal Execution) (time : Nat) : Nat → Rehearsal Execution
  | 0 => r
  | fuel + 1 =>
    let r := r.rest
    match r.passTime (some time) with
    | some r => waitUntil r time fuel
    | none => r

def hasCalled (r : Rehearsal Execution) (method : Method) : Bool :=
  r.log.any fun entry => entry.2.method = method

/-- Run a command to its end, or until nothing more can happen. -/
def conclude (r : Rehearsal Execution) (circumstances : Circumstances) :
    Nat → Rehearsal Execution
  | 0 => r
  | fuel + 1 =>
    let r := r.rest
    if r.performer.hasEnded then r
    else if circumstances.interrupt.any r.hasCalled then
      conclude (r.follow (r.performer.step .interrupt))
        { circumstances with interrupt := none } fuel
    else if 0 < circumstances.seconds then
      conclude (r.waitUntil (r.now + 1000) manyTurns)
        { circumstances with seconds := circumstances.seconds - 1 } fuel
    else match r.passTime none with
      | some r => conclude r circumstances fuel
      | none => r

/-- Rehearse a command from its beginning. -/
def ofCommand (configuration : Configuration) (command : Command) (clock : Int) (script : Script)
    (network : String → Except WireError Unit) (circumstances : Circumstances) :
    Rehearsal Execution :=
  let begun := Execution.start configuration command (scene clock)
  ((fresh begun.1 script.reported network).follow begun).conclude circumstances manyTurns

end Rehearsal

end ExchangeNode
