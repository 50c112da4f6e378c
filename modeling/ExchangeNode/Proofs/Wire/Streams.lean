import ExchangeNode.Proofs.Wire.Hosting
import ExchangeNode.Wire.Subscription

/-!
# Streams over a connection

A host puts the records of a stream on the connection one by one and ends them with a message of
its own, or with the report of the failure that cut them off. The other end takes the messages from
the connection in the same order, each for what it was, and stops at the same place. So it yields
the stream of the service up to its first failure. Nothing is read twice or left out, because the
frame of a message is taken from the connection as a whole and nothing else with it.
-/

namespace ExchangeNode

/-! ### The host -/

theorem Hosted.connection_of_opening {σ : Type} {h : Hosted} (service : Service σ) (s : σ)
    {r : Request} (hosted : h.hosts r.method) (rereads : (Subscription.opening r).Rereads)
    (fits : (Subscription.opening r).Fits) :
    h.connection service s (Subscription.opening r).write =
      ⟨(r.method.bodies (service.answer s r).1).map fun body => ⟨0, body⟩, [r],
        (service.answer s r).2⟩ := by
  have taken := Message.read_write rereads fits []
  rw [List.append_nil] at taken
  rw [connection_of_request taken, answer_of_hosted hosted]
  simp [connection_of_error Message.read_nil]

namespace Subscription

variable {α β : Type} {method : Method} {record? : Item → Option β} {item : α → Item}
  {view : α → β} {bytes rest : List UInt8} {m : Message}

/-! ### The client -/

/-- A stream as the other end yields it: up to its first failure, which comes as reported. -/
def forwarded : RecordStream α → RecordStream α
  | [] => []
  | .ok a :: rest => .ok a :: forwarded rest
  | .error e :: _ => [.error e.reported]

theorem records_of_record {b : β} (taken : Message.read bytes = (.ok m, rest))
    (isRecord : element method record? (.ok m) = .record b) :
    records method record? bytes = .ok b :: records method record? rest := by
  rw [records]
  split <;> simp_all

theorem records_of_failure {e : WireError} (taken : Message.read bytes = (.ok m, rest))
    (isFailure : element method record? (.ok m) = .failure e) :
    records method record? bytes = [.error e] := by
  rw [records]
  split <;> simp_all

theorem records_of_finish (taken : Message.read bytes = (.ok m, rest))
    (isFinish : element method record? (.ok m) = .finish) :
    records method record? bytes = [] := by
  rw [records]
  split <;> simp_all

theorem element_item {id : UInt64} {i : Item} {b : β} (goesOn : i ≠ .finish)
    (isRecord : record? i = some b) : element method record? (.ok ⟨id, .item i⟩) = .record b := by
  cases i with
  | finish => exact absurd rfl goesOn
  | _ => simp only [element, isRecord]

/-- The messages in which a stream comes. -/
def streamMessages (item : α → Item) (stream : RecordStream α) : List Message :=
  (streamBodies item stream).map fun body => ⟨0, body⟩

theorem records_streamMessages (goesOn : ∀ a, item a ≠ .finish)
    (kept : ∀ a, record? (item a) = some (view a)) (stream : RecordStream α)
    (fits : ∀ m ∈ streamMessages item stream, m.Fits) :
    records method record? (frames (streamMessages item stream)) =
      forwarded (stream.map (Except.map view)) := by
  induction stream with
  | nil =>
    have taken := Message.read_write (Message.rereads_of_item 0 .finish)
      (fits _ (List.mem_singleton.mpr rfl)) []
    exact records_of_finish taken rfl
  | cons first later ih =>
    cases first with
    | error e =>
      have taken := Message.read_write (Message.rereads_of_response 0 (.ofError e))
        (fits _ (List.mem_singleton.mpr rfl)) []
      exact records_of_failure taken rfl
    | ok a =>
      obtain ⟨fits, others⟩ := List.forall_mem_cons.mp fits
      have taken := Message.read_write (Message.rereads_of_item 0 (item a)) fits
        (frames (streamMessages item later))
      exact (records_of_record taken (element_item (goesOn a) (kept a))).trans
        (congrArg _ (ih others))

theorem receive_of_accepted (goesOn : ∀ a, item a ≠ .finish)
    (kept : ∀ a, record? (item a) = some (view a)) (stream : RecordStream α)
    (fits : ∀ m ∈ (⟨0, .response (.ack .done)⟩ :: streamMessages item stream : List Message),
      m.Fits) :
    receive method record? (frames (⟨0, .response (.ack .done)⟩ :: streamMessages item stream)) =
      .ok (forwarded (stream.map (Except.map view))) := by
  obtain ⟨fits, others⟩ := List.forall_mem_cons.mp fits
  have taken := Message.read_write (Message.rereads_of_response 0 (.ack .done)) fits
    (frames (streamMessages item stream))
  simp only [receive, frames_cons, taken, records_streamMessages goesOn kept stream others]
  rfl

theorem receive_of_refused {e : WireError} (fits : Message.Fits ⟨0, .response (.ofError e)⟩) :
    receive method record? (frames [⟨0, .response (.ofError e)⟩]) = .error e.reported := by
  have taken := Message.read_write (Message.rereads_of_response 0 (.ofError e)) fits []
  simp only [receive, frames_cons, frames_nil, taken]
  rfl

/-- The stream of a subscription as the items that carry its records. -/
def items : (m : Method) → m.Answer → RecordStream Item
  | .subscribe _, stream => stream.map (Except.map Item.advert)
  | .subscribeBus, stream => stream.map (Except.map Item.message)
  | _, _ => []

theorem item?_advert {side : Side} (a : Advert side) :
    Method.item? (.subscribe side) (.advert a) = some (.advert a) := by
  cases side <;> rfl

theorem rereads_opening {r : Request} (subscription : r.isSubscription) : (opening r).Rereads := by
  cases r with
  | keepAlive heartbeat => cases subscription
  | _ => nofun

/-- A subscription yields what the service answers: its records up to its first failure, or the
failure with which it refuses. -/
theorem receive_opening {σ : Type} {h : Hosted} {service : Service σ} {s : σ} {r : Request}
    (subscription : r.isSubscription) (hosted : h.hosts r.method) (fits : (opening r).Fits)
    (answerFits : ∀ m ∈ (h.connection service s (opening r).write).sent, m.Fits) :
    let hosting := h.connection service s (opening r).write
    hosting.served = [r] ∧
      receive r.method r.method.item? (frames hosting.sent) =
        ((service.answer s r).1.mapError WireError.reported).map
          fun answer => forwarded (items r.method answer) := by
  have served := Hosted.connection_of_opening service s hosted
    (rereads_opening subscription) fits
  rw [served] at answerFits ⊢
  refine ⟨rfl, ?_⟩
  generalize (service.answer s r).1 = answer at answerFits ⊢
  cases answer with
  | error e =>
    rw [Method.bodies_error] at answerFits ⊢
    exact receive_of_refused (answerFits _ (List.mem_singleton.mpr rfl))
  | ok stream =>
    cases r with
    | subscribe side channel =>
      have goesOn (a : Advert side) : Item.advert a ≠ .finish := nofun
      exact receive_of_accepted goesOn item?_advert stream answerFits
    | subscribeBus bus =>
      have goesOn (message : BusMessage) : Item.message message ≠ .finish := nofun
      have kept (message : BusMessage) :
          Method.item? .subscribeBus (.message message) = some (.message message) := rfl
      exact receive_of_accepted goesOn kept stream answerFits
    | _ => cases subscription

/-- An exchange whose buses carry one message, then a failure, then the message again. -/
def faltering (message : BusMessage) : Service Unit where
  answer _ r := match r with
    | .subscribeBus _ => (.ok [.ok message, .error .connectionClosed, .ok message], ())
    | _ => (.error (.remote 404 "nothing here"), ())

/-- What comes after the failure is not seen. -/
theorem receive_opening_faltering :
    let message : BusMessage := ⟨1, 2, 3, 50, 0, "text", "\"hello\"", none⟩
    let r : Request := .subscribeBus ⟨9, 50, ""⟩
    let hosting := Hosted.connection ⟨false, true⟩ (faltering message) () (opening r).write
    (∀ m ∈ hosting.sent, m.Fits) ∧ hosting.served = [r] ∧
      receive r.method r.method.item? (frames hosting.sent) =
        .ok [.ok (.message message), .error (.remote 500 "Connection closed")] := by
  intro message r hosting
  have fits : (opening r).Fits := by decide +kernel
  have answerFits : ∀ m ∈ hosting.sent, m.Fits := by
    rw [show hosting = _ from Hosted.connection_of_opening (faltering message) () rfl nofun fits]
    decide +kernel
  exact ⟨answerFits, receive_opening rfl rfl fits answerFits⟩

end Subscription

end ExchangeNode
