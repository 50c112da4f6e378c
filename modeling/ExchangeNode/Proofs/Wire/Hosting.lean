import Mathlib.Data.List.Basic
import ExchangeNode.Proofs.Wire.Framing
import ExchangeNode.Wire.Host
import ExchangeNode.Wire.Link

/-!
# Calls that a host answers

What a service answers when it is called directly, one call after the other, is what a host that
hosts it does with the frames of the same calls: it hands them on in order, and puts the frames of
the answers on the connection in the same order. A failure is answered like anything else, so the
calls behind it are served as if nothing had happened.

The response to a call is read by the rules of its method, and comes out as the answer it was made
from. A failure comes out as the other end reports it.
-/

namespace ExchangeNode

/-! ### Responses -/

namespace Method

variable {m : Method}

/-- The response to a call that was answered so. -/
def responseTo (m : Method) : Except WireError m.Answer → Response
  | .ok answer => m.respond answer
  | .error e => .ofError e

theorem bodies_error (m : Method) (e : WireError) :
    m.bodies (.error e) = [.response (.ofError e)] := by
  cases m <;> rfl

theorem bodies_of_call (unary : m.isSubscription = false) (result : Except WireError m.Answer) :
    m.bodies result = [.response (m.responseTo result)] := by
  cases result with
  | error e => exact bodies_error m e
  | ok answer => cases m <;> first | rfl | cases unary

theorem expect_respond (unary : m.isSubscription = false) (answer : m.Answer) :
    m.expect (m.respond answer) = .ok answer := by
  cases m <;> first | rfl | cases unary

theorem replyOf_respond (answer : m.Answer) :
    Link.replyOf m (.response (m.respond answer)) = .ok (m.respond answer) := by
  cases m <;> rfl

theorem replyOf_ofError (e : WireError) :
    Link.replyOf m (.response (.ofError e)) = .error e.reported := rfl

/-- What the caller makes of the response. -/
theorem expect_replyOf (unary : m.isSubscription = false) (result : Except WireError m.Answer) :
    (Link.replyOf m (.response (m.responseTo result))).bind m.expect =
      result.mapError WireError.reported := by
  cases result with
  | error e => rw [responseTo, replyOf_ofError]; rfl
  | ok answer =>
    rw [responseTo, replyOf_respond]
    exact expect_respond unary answer

end Method

/-! ### Calls one after the other -/

/-- A call and what came of it. -/
structure CallResult where
  request : Request
  result : Except WireError request.method.Answer

namespace CallResult

/-- The call as its caller sees it when it has gone over a connection. -/
def reported (a : CallResult) : CallResult := ⟨a.request, a.result.mapError WireError.reported⟩

def response (a : CallResult) : Response := a.request.method.responseTo a.result

/-- The reply to the call. -/
def reply (a : CallResult) : Reply := Link.replyOf a.request.method (.response a.response)

/-- What a reply says about a call. -/
def ofReply (r : Request) (reply : Reply) : CallResult := ⟨r, reply.bind r.method.expect⟩

end CallResult

/-- The messages of calls. -/
def askings (number : Nat → UInt64) (calls : List Request) : List Message :=
  calls.mapIdx fun i r => ⟨number i, .request r⟩

/-- The messages of their answers. -/
def answerings (number : Nat → UInt64) (results : List CallResult) : List Message :=
  results.mapIdx fun i a => ⟨number i, .response a.response⟩

/-- What is put on a connection for messages. -/
def frames (messages : List Message) : List UInt8 := messages.flatMap Message.write

@[simp] theorem frames_nil : frames [] = [] := rfl

@[simp] theorem frames_cons (m : Message) (rest : List Message) :
    frames (m :: rest) = m.write ++ frames rest := rfl

@[simp] theorem frames_append (earlier later : List Message) :
    frames (earlier ++ later) = frames earlier ++ frames later := List.flatMap_append

namespace Service

variable {σ : Type} (service : Service σ)

/-- Call a service directly, one call after the other. -/
def run : σ → List Request → List CallResult × σ
  | s, [] => ([], s)
  | s, r :: rest =>
    let (result, s) := service.answer s r
    let (later, s) := run s rest
    (⟨r, result⟩ :: later, s)

theorem run_append (s : σ) (earlier later : List Request) :
    service.run s (earlier ++ later) =
      ((service.run s earlier).1 ++ (service.run (service.run s earlier).2 later).1,
        (service.run (service.run s earlier).2 later).2) := by
  induction earlier generalizing s with
  | nil => rfl
  | cons r rest ih => simp only [List.cons_append, run, ih]

theorem length_run (s : σ) (calls : List Request) :
    (service.run s calls).1.length = calls.length := by
  induction calls generalizing s with
  | nil => rfl
  | cons r rest ih => simp only [run, List.length_cons, ih]

end Service

/-! ### The host -/

namespace Hosted

variable {σ : Type} {h : Hosted} {service : Service σ} {s : σ} {bytes rest : List UInt8}

theorem answer_of_hosted {r : Request} (hosted : h.hosts r.method) :
    h.answer service s r = ((service.answer s r).1, [r], (service.answer s r).2) := by
  rw [answer, if_pos hosted]

theorem answer_of_elsewhere {r : Request} (elsewhere : h.hosts r.method = false) :
    h.answer service s r = (.error (missing r.method), [], s) := by
  rw [answer, if_neg (Bool.eq_false_iff.mp elsewhere)]

/-- At a frame that cannot be read, or has not come completely, the host does nothing more. -/
theorem connection_of_error {e : WireError} (taken : Message.read bytes = (.error e, rest)) :
    h.connection service s bytes = ⟨[], [], s⟩ := by
  rw [connection]
  split <;> simp_all

/-- A request is handed on and answered; what follows is served unless it has opened a stream. -/
theorem connection_of_request {id : UInt64} {r : Request}
    (taken : Message.read bytes = (.ok ⟨id, .request r⟩, rest)) :
    h.connection service s bytes =
      let answer := h.answer service s r
      let sent := (r.method.bodies answer.1).map fun body => (⟨id, body⟩ : Message)
      if r.isSubscription && answer.1.toBool then ⟨sent, answer.2.1, answer.2.2⟩
      else
        let later := h.connection service answer.2.2 rest
        ⟨sent ++ later.sent, answer.2.1 ++ later.served, later.state⟩ := by
  rw [connection]
  split
  · next equal =>
    rw [taken] at equal
    simp only [Prod.mk.injEq, Except.ok.injEq, Message.mk.injEq, Body.request.injEq] at equal
    obtain ⟨⟨rfl, rfl⟩, rfl⟩ := equal
    rfl
  all_goals simp_all

/-- A message that is no request is passed over. -/
theorem connection_of_other {m : Message} (taken : Message.read bytes = (.ok m, rest))
    (other : ∀ r, m.body ≠ .request r) :
    h.connection service s bytes = h.connection service s rest := by
  obtain ⟨id, body⟩ := m
  cases body with
  | request r => exact absurd rfl (other r)
  | _ =>
    rw [connection]
    split <;> simp_all

/-- The first request on a connection, when it leaves the connection to further requests. -/
theorem connection_of_call {id : UInt64} {r : Request}
    (taken : Message.read bytes = (.ok ⟨id, .request r⟩, rest)) (hosted : h.hosts r.method)
    (unary : r.isSubscription = false) :
    h.connection service s bytes =
      let answer := service.answer s r
      let later := h.connection service answer.2 rest
      ⟨⟨id, .response (r.method.responseTo answer.1)⟩ :: later.sent, r :: later.served,
        later.state⟩ := by
  rw [connection_of_request taken, answer_of_hosted hosted]
  simp [unary, Method.bodies_of_call unary]

/-- What a host has done once it has answered the calls. -/
def answered (service : Service σ) (s : σ) (number : Nat → UInt64) (calls : List Request) :
    Hosting σ :=
  ⟨answerings number (service.run s calls).1, calls, (service.run s calls).2⟩

/-- Calls on a connection, and what follows them. -/
theorem connection_of_calls {number : Nat → UInt64} {calls : List Request}
    (hosted : ∀ r ∈ calls, h.hosts r.method) (unary : ∀ r ∈ calls, r.isSubscription = false)
    (rereads : ∀ m ∈ askings number calls, m.Rereads) (fits : ∀ m ∈ askings number calls, m.Fits)
    (bytes : List UInt8) :
    h.connection service s (frames (askings number calls) ++ bytes) =
      let before := answered service s number calls
      let later := h.connection service before.state bytes
      ⟨before.sent ++ later.sent, before.served ++ later.served, later.state⟩ := by
  -- The calls behind the first are those of a connection that begins in the state after it and
  -- counts on from its number.
  induction calls generalizing s number with
  | nil => rfl
  | cons r rest ih =>
    simp only [askings, List.mapIdx_cons, List.forall_mem_cons] at hosted unary rereads fits
    have taken := Message.read_write rereads.1 fits.1
      (frames (askings (fun i => number (i + 1)) rest) ++ bytes)
    have later := ih (s := (service.answer s r).2) hosted.2 unary.2 rereads.2 fits.2
    simp only [askings, List.mapIdx_cons, frames_cons, List.append_assoc] at taken later ⊢
    simp only [connection_of_call taken hosted.1 unary.1, later, answered, answerings, Service.run,
      List.mapIdx_cons, CallResult.response, List.cons_append]

end Hosted

end ExchangeNode
