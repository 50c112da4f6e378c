import ExchangeNode.Wire.Reply

/-!
# Scripts

A script says what a directory and an exchange do with the calls that reach them: for each method a
list of entries, of which each call takes the next. Where none is left the service does the usual
thing.
-/

namespace ExchangeNode

/-- An item of a stream, and how long after the one before it is ready. -/
structure ScriptItem where
  delay : Nat
  item : Except WireError Item

inductive Behaviour where
  | usual
  /-- Never answer. -/
  | stall
  | fail (error : WireError)
  | reply (response : Response)
  /-- Accept a subscription. After its items the stream ends, or is silent for ever. -/
  | stream (items : List ScriptItem) (endless : Bool)

structure ScriptEntry where
  /-- Milliseconds before anything happens. -/
  delay : Nat
  behaviour : Behaviour

abbrev Script := List (Method × ScriptEntry)

namespace Script

/-- The next entry for a method, and the script without it. -/
def take (script : Script) (method : Method) : ScriptEntry × Script :=
  match script.find? fun entry => entry.1 = method with
  | some (_, entry) => (entry, script.eraseP fun entry => entry.1 = method)
  | none => (⟨0, .usual⟩, script)

/-- What a script looks like from the other end of a connection, where failures are reported. -/
def reported (script : Script) : Script :=
  let item (i : ScriptItem) : ScriptItem := { i with item := i.item.mapError WireError.reported }
  let behaviour : Behaviour → Behaviour
    | .fail e => .fail e.reported
    | .stream items endless => .stream (items.map item) endless
    | b => b
  script.map fun (method, entry) =>
    (method, { entry with behaviour := behaviour entry.behaviour })

end Script

namespace Request

/-- What a service does unless its script says otherwise. -/
def usual : Request → Behaviour
  | .register _ => .reply (.identity ⟨7, 1007, "\x7bexchange\x7d", 5⟩)
  | .unregister _ => .reply (.ack .done)
  | .keepAlive _ => .reply (.heartbeat ⟨true, .nothing, ""⟩)
  | .queryNode node => .fail (.remote 404 ("unknown node " ++ toString node.toInt))
  | .notify _ => .reply (.ack .done)
  | .propose _ => .reply (.ack .done)
  | .select _ _ => .reply (.confirmation ⟨true, 0, ""⟩)
  | .confirm _ => .reply (.ack .done)
  | .send _ => .reply (.ack .done)
  | .closeBus _ => .reply (.ack .done)
  | .createBus _ => .reply (.bus ⟨0, 50, ""⟩)
  | .busState bus => .reply (.busState ⟨bus.id, .fresh, []⟩)
  | .subscribe _ _ => .stream [] false
  | .subscribeBus _ => .stream [] false

end Request

namespace ScriptEntry

/-- What a service does with a request. -/
def resolve (entry : ScriptEntry) (request : Request) : Behaviour :=
  match entry.behaviour with
  | .usual => request.usual
  | behaviour => behaviour

end ScriptEntry

namespace Behaviour

/-- The reply to the call itself, if one ever comes. -/
def reply? : Behaviour → Option Reply
  | .usual => none
  | .stall => none
  | .fail error => some (.error error)
  | .reply response => some (.ok response)
  | .stream _ _ => some (.ok (.ack .done))

end Behaviour

end ExchangeNode
