import ExchangeNode.Rehearsal.Script
import ExchangeNode.Wire.Host
import ExchangeNode.Wire.Subscription

/-!
# Scripted services

A script as a service that a host can host: each request takes its entry from the script. A host
does not see how long an answer takes, so delays make no difference here. An entry that never
answers is taken as one whose connection is closed.
-/

namespace ExchangeNode

/-- What a stream yields, item by item. -/
def Script.records {α : Type} (record? : Item → Option α) (items : List ScriptItem) :
    RecordStream α :=
  items.filterMap fun i => match i.item with
    | .ok item => (record? item).map .ok
    | .error e => some (.error e)

/-- What a method answers where a service behaves in some way. -/
def Method.answered : (m : Method) → Behaviour → Except WireError m.Answer
  | _, .stall => .error .connectionClosed
  | _, .fail e => .error e
  | .subscribe side, .stream items _ => .ok (Script.records (Item.advert? side) items)
  | .subscribeBus, .stream items _ => .ok (Script.records Item.message? items)
  | m, .reply response => m.expect response
  | m, _ => m.unexpected

def Script.service : Service Script where
  answer script request :=
    let (entry, script) := script.take request.method
    (request.method.answered (entry.resolve request), script)

end ExchangeNode
