import ExchangeNode.Node.Basic

/-!
# What a node does by itself

Between two things that happen to a node it can go on with what no longer waits, and after some time
with what has waited long enough. Where several things can happen, the first of them is as good as
any.
-/

namespace ExchangeNode.Node

/-- Something that can go on without waiting. -/
def ready? (n : Node) : Option Event :=
  let loops := n.session.loops.entries
  let proceed := n.session.jobs.entries.findSome? fun (job, work) =>
    match work.loop? with
    | some loop => if n.session.loops.contains loop then none else some (.session (.proceed job))
    | none => none
  let begin := loops.findSome? fun (loop, l) =>
    match l.stage with
    | .starting => some (.session (.wake loop))
    | _ => none
  let stop := loops.findSome? fun (loop, l) =>
    match l.stopped, l.stage with
    | true, .sleeping _ => some (.session (.heed loop))
    | _, _ => none
  let cancelled := n.errands.entries.findSome? fun (job, errand) =>
    match errand with
    | .receiving _ switch => if switch.callsOff then some (.heed job) else none
    | _ => none
  proceed.or (begin.or (stop.or cancelled))

/-- A timer that is due. -/
def due? (n : Node) : Option Event :=
  let now := n.session.world.now
  let loops := n.session.loops.entries
  let late (wait : Option Wait) : Option Event :=
    wait.bind fun wait => if wait.deadline ≤ now then some (.timeout wait.call) else none
  let wake := loops.findSome? fun (loop, l) =>
    l.stage.wake?.bind fun wake => if wake ≤ now then some (.session (.wake loop)) else none
  let release := n.session.release.bind fun time =>
    if time ≤ now then some (.session .release) else none
  let beating := loops.findSome? fun (_, l) => late l.stage.wait?
  let working := n.session.jobs.entries.findSome? fun (_, work) => late work.wait?
  let asking := n.errands.entries.findSome? fun (_, errand) => late errand.wait?
  wake.or (release.or (beating.or (working.or asking)))

/-- When something happens by itself next. -/
def nextDeadline? (n : Node) : Option Nat := n.deadlines.min?

end ExchangeNode.Node
