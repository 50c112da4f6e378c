import Mathlib.Logic.Relation
import ExchangeNode.Proofs.Wire.Hosting

/-!
# Calls over a connection

A link makes calls one after the other, and a host answers them, over one connection that fails
nowhere. Bytes travel in both directions at their own pace and in pieces of any size. Whatever that
pace is, the conversation is in one of a few places: between two calls, when everything that was
written has been read, or within a call, when what is under way is the frame of its request or that
of its response. Each step leads from one such place to another, and only a finished conversation
has no step left. So the service sees the calls of the client and no others, and the client what a
direct caller of the service would see, but for the failures, which come as reported.
-/

namespace ExchangeNode

open Relation (ReflTransGen)

namespace Link

/-- What a link has put on its first connection. -/
def written (effects : List Effect) : List UInt8 :=
  effects.flatMap fun
    | .write 0 m => m.write
    | _ => []

/-- The replies a link has given. -/
def replies (effects : List Effect) : List Reply :=
  effects.filterMap fun
    | .reply reply => some reply
    | _ => none

end Link

/-- A link and the connection from it to a host. What the host has done follows from the bytes that
have arrived there. -/
structure Conversation where
  link : Link
  /-- The calls that have not begun. -/
  ahead : List Request
  /-- What the link has asked for so far. -/
  asked : List Link.Effect
  /-- How many bytes have arrived at the host. -/
  arrived : Nat
  /-- How many of the host's bytes have come back. -/
  returned : Nat
  /-- How many of those the client has read. -/
  read : Nat

/-- The number of a call in its messages. -/
def callNumber (i : Nat) : UInt64 := .ofNat (i + 1)

namespace Conversation

def start (calls : List Request) : Conversation := ⟨.connected, calls, [], 0, 0, 0⟩

def upstream (c : Conversation) : List UInt8 := Link.written c.asked

/-- What the calls have come to so far. -/
def results (c : Conversation) (calls : List Request) : List CallResult :=
  calls.zipWith CallResult.ofReply (Link.replies c.asked)

/-- An event happens to the link. -/
def tell (c : Conversation) (event : Link.Event) : Conversation :=
  { c with link := (c.link.step event).1, asked := c.asked ++ (c.link.step event).2 }

variable {σ : Type} (h : Hosted) (service : Service σ) (s : σ)

/-- What the host has done. -/
def host (c : Conversation) : Hosting σ := h.connection service s (c.upstream.take c.arrived)

def downstream (c : Conversation) : List UInt8 := frames (c.host h service s).sent

/-- What has come back and has not been read. -/
def unread (c : Conversation) : List UInt8 :=
  ((c.downstream h service s).take c.returned).drop c.read

inductive Step : Conversation → Conversation → Prop where
  /-- The next call begins. -/
  | call {c r rest} (idle : c.link.stage = .idle) (next : c.ahead = r :: rest) :
      Step c ({ c with ahead := rest }.tell (.call r))
  | wrote {c connection id method} (writing : c.link.stage = .writing connection id method) :
      Step c (c.tell (.wrote (.ok ())))
  /-- Bytes arrive at the host. -/
  | carry {c count} (more : c.arrived < count) (there : count ≤ c.upstream.length) :
      Step c { c with arrived := count }
  /-- Bytes come back. -/
  | bring {c count} (more : c.returned < count)
      (there : count ≤ (c.downstream h service s).length) :
      Step c { c with returned := count }
  /-- The client reads a message, or sees that it cannot be one. -/
  | read {c id method result rest} (reading : c.link.stage = .reading 0 id method)
      (taken : Message.read (c.unread h service s) = (result, rest))
      (enough : ∀ e, result = .error e → e.isShortage = false) :
      Step c ({ c with read := c.returned - rest.length }.tell (.received result))

end Conversation

/-! ### What goes over the connection -/

section

variable {σ : Type} (h : Hosted) (service : Service σ) (s : σ)

/-- What calls ask of a host and of the connection to it. -/
structure Carries (calls : List Request) : Prop where
  hosted : ∀ r ∈ calls, h.hosts r.method
  unary : ∀ r ∈ calls, r.isSubscription = false
  rereads : ∀ m ∈ askings callNumber calls, m.Rereads
  fits : ∀ m ∈ askings callNumber calls, m.Fits
  answersFit : ∀ m ∈ answerings callNumber (service.run s calls).1, m.Fits

/-- The message of the call `r` after the calls `past`. -/
def asking (past : List Request) (r : Request) : Message := ⟨callNumber past.length, .request r⟩

/-- The message that answers it. -/
def answering (past : List Request) (r : Request) : Message :=
  ⟨callNumber past.length,
    .response (r.method.responseTo (service.answer (service.run s past).2 r).1)⟩

def callBytes (calls : List Request) : List UInt8 := frames (askings callNumber calls)

def answerBytes (calls : List Request) : List UInt8 :=
  frames (answerings callNumber (service.run s calls).1)

variable {h service s} {past rest : List Request} {r : Request}

theorem askings_concat (past : List Request) (r : Request) :
    askings callNumber (past ++ [r]) = askings callNumber past ++ [asking past r] :=
  List.mapIdx_concat

theorem answerings_concat (past : List Request) (r : Request) :
    answerings callNumber (service.run s (past ++ [r])).1 =
      answerings callNumber (service.run s past).1 ++ [answering service s past r] := by
  simp only [Service.run_append, Service.run, answerings]
  rw [List.mapIdx_concat, Service.length_run]
  rfl

theorem callBytes_concat (past : List Request) (r : Request) :
    callBytes (past ++ [r]) = callBytes past ++ (asking past r).write := by
  rw [callBytes, askings_concat]
  simp [callBytes]

theorem answerBytes_concat (past : List Request) (r : Request) :
    answerBytes service s (past ++ [r]) =
      answerBytes service s past ++ (answering service s past r).write := by
  rw [answerBytes, answerings_concat]
  simp [answerBytes]

theorem callNumber_succ (i : Nat) : callNumber (i + 1) = callNumber i + 1 :=
  UInt64.ofNat_add (i + 1) 1

namespace Carries

theorem before (carries : Carries h service s (past ++ rest)) : Carries h service s past where
  hosted r member := carries.hosted r (List.mem_append_left _ member)
  unary r member := carries.unary r (List.mem_append_left _ member)
  rereads m member := carries.rereads m (by
    rw [askings, List.mapIdx_append]; exact List.mem_append_left _ member)
  fits m member := carries.fits m (by
    rw [askings, List.mapIdx_append]; exact List.mem_append_left _ member)
  answersFit m member := carries.answersFit m (by
    rw [Service.run_append, answerings, List.mapIdx_append]; exact List.mem_append_left _ member)

theorem asking_fits (carries : Carries h service s (past ++ [r])) : (asking past r).Fits :=
  carries.fits _ (by simp [askings_concat])

theorem answering_fits (carries : Carries h service s (past ++ [r])) :
    (answering service s past r).Fits :=
  carries.answersFit _ (by simp [answerings_concat])

/-- The host has answered the calls that have arrived, when what is left is no message. -/
theorem connection_eq (carries : Carries h service s past) {bytes left : List UInt8}
    {e : WireError} (taken : Message.read bytes = (.error e, left)) :
    h.connection service s (callBytes past ++ bytes) =
      Hosted.answered service s callNumber past := by
  simp [callBytes, Hosted.connection_of_calls carries.hosted carries.unary carries.rereads
    carries.fits, Hosted.connection_of_error taken, Hosted.answered]

end Carries

end

namespace Conversation

/-! ### Where a conversation stands -/

section

variable {σ : Type} (h : Hosted) (service : Service σ) (s : σ)

/-- Between two calls: those made have been answered, and nothing is under way. -/
structure Between (past : List Request) (c : Conversation) : Prop where
  link : c.link = ⟨some 0, callNumber past.length, 1, .idle⟩
  upstream : c.upstream = callBytes past
  replies : Link.replies c.asked = (service.run s past).1.map CallResult.reply
  arrived : c.arrived = c.upstream.length
  read : c.read = (answerBytes service s past).length
  returned : c.returned = c.read

/-- Within a call: all that came before it is over, and its request or its response is under way. -/
structure Within (past : List Request) (r : Request) (c : Conversation) : Prop where
  link : c.link = ⟨none, callNumber (past.length + 1), 1, c.link.stage⟩
  stage : c.link.stage = .writing 0 (callNumber past.length) r.method ∨
    c.link.stage = .reading 0 (callNumber past.length) r.method
  upstream : c.upstream = callBytes (past ++ [r])
  replies : Link.replies c.asked = (service.run s past).1.map CallResult.reply
  begun : (callBytes past).length ≤ c.arrived
  arrived : c.arrived ≤ c.upstream.length
  read : c.read = (answerBytes service s past).length
  unread : c.read ≤ c.returned
  returned : c.returned ≤ (c.downstream h service s).length

inductive Stands (calls : List Request) (c : Conversation) : Prop where
  | between {past} (split : calls = past ++ c.ahead) (place : Between service s past c)
  | within {past r} (split : calls = past ++ r :: c.ahead) (place : Within h service s past r c)

end

variable {σ : Type} {h : Hosted} {service : Service σ} {s : σ} {calls past rest : List Request}
  {r : Request} {c c' : Conversation}

theorem host_of_between (place : Between service s past c) (carries : Carries h service s past) :
    c.host h service s = Hosted.answered service s callNumber past := by
  rw [host, place.arrived, List.take_length, place.upstream]
  simpa using carries.connection_eq Message.read_nil

/-- The host has answered the call that is under way just when all its bytes have arrived. -/
theorem host_of_begun (carries : Carries h service s (past ++ [r]))
    (upstream : c.upstream = callBytes (past ++ [r]))
    (begun : (callBytes past).length ≤ c.arrived) (arrived : c.arrived ≤ c.upstream.length) :
    c.arrived < c.upstream.length ∧
      c.host h service s = Hosted.answered service s callNumber past ∨
    c.arrived = c.upstream.length ∧
      c.host h service s = Hosted.answered service s callNumber (past ++ [r]) := by
  rcases Nat.lt_or_eq_of_le arrived with lacking | complete
  -- A piece of a frame is no message, so the host stops before it.
  · refine .inl ⟨lacking, ?_⟩
    rw [callBytes_concat] at upstream
    rw [upstream, List.length_append] at lacking
    have short : c.arrived - (callBytes past).length < (asking past r).write.length := by omega
    obtain ⟨e, -, taken⟩ := Message.read_take carries.asking_fits short
    rw [host, upstream, List.take_append, List.take_of_length_le begun]
    exact carries.before.connection_eq taken
  · refine .inr ⟨complete, ?_⟩
    rw [host, complete, List.take_length, upstream]
    simpa using carries.connection_eq Message.read_nil

theorem downstream_of_begun (carries : Carries h service s (past ++ [r]))
    (upstream : c.upstream = callBytes (past ++ [r]))
    (begun : (callBytes past).length ≤ c.arrived) (arrived : c.arrived ≤ c.upstream.length) :
    c.arrived < c.upstream.length ∧ c.downstream h service s = answerBytes service s past ∨
    c.arrived = c.upstream.length ∧
      c.downstream h service s =
        answerBytes service s past ++ (answering service s past r).write := by
  rw [← answerBytes_concat]
  exact (host_of_begun carries upstream begun arrived).imp
    (fun ⟨lacking, done⟩ => ⟨lacking, by rw [downstream, done]; rfl⟩)
    (fun ⟨complete, done⟩ => ⟨complete, by rw [downstream, done]; rfl⟩)

theorem length_le_downstream (carries : Carries h service s (past ++ [r]))
    (upstream : c.upstream = callBytes (past ++ [r]))
    (begun : (callBytes past).length ≤ c.arrived) (arrived : c.arrived ≤ c.upstream.length) :
    (answerBytes service s past).length ≤ (c.downstream h service s).length := by
  rcases downstream_of_begun carries upstream begun arrived with ⟨-, back⟩ | ⟨-, back⟩
  · rw [back]
  · rw [back, List.length_append]
    omega

/-- Within a call the client finds either too few bytes, and then there are more on the way, or the
answer. -/
theorem read_unread (place : Within h service s past r c)
    (carries : Carries h service s (past ++ [r])) :
    (c.arrived < c.upstream.length ∨ c.returned < (c.downstream h service s).length) ∧
      (∃ e left, e.isShortage ∧ Message.read (c.unread h service s) = (.error e, left)) ∨
    c.arrived = c.upstream.length ∧ c.returned = (c.downstream h service s).length ∧
      Message.read (c.unread h service s) = (.ok (answering service s past r), []) := by
  have bound := place.returned
  have later := place.unread
  rw [place.read] at later
  rcases downstream_of_begun carries place.upstream place.begun place.arrived with
    ⟨lacking, back⟩ | ⟨complete, back⟩
  -- The host has not got the whole request, so it has sent nothing new.
  · have nothing : c.unread h service s = [] := by
      rw [unread, place.read, back]
      exact List.drop_eq_nil_of_le (List.length_take_le' ..)
    exact .inl ⟨.inl lacking, .connectionClosed, [], rfl, by rw [nothing, Message.read_nil]⟩
  -- It has answered, and what has come back of that is a piece of one frame or all of it.
  · have piece : c.unread h service s = (answering service s past r).write.take
        (c.returned - (answerBytes service s past).length) := by
      rw [unread, place.read, back, List.take_append, List.take_of_length_le later,
        List.drop_left]
    rw [back, List.length_append] at bound ⊢
    rcases Nat.lt_or_eq_of_le bound with lacking | all
    · have short : c.returned - (answerBytes service s past).length <
          (answering service s past r).write.length := by omega
      obtain ⟨e, shortage, taken⟩ := Message.read_take carries.answering_fits short
      exact .inl ⟨.inr lacking, e, [], shortage, by rw [piece, taken]⟩
    · have taken := Message.read_write (Message.rereads_of_response _ _) carries.answering_fits []
      rw [List.append_nil] at taken
      rw [all, Nat.add_sub_cancel_left, List.take_length] at piece
      exact .inr ⟨complete, all, by rw [piece]; exact taken⟩

/-! ### Steps -/

theorem upstream_tell (c : Conversation) (event : Link.Event) :
    (c.tell event).upstream = c.upstream ++ Link.written (c.link.step event).2 :=
  List.flatMap_append

theorem replies_tell (c : Conversation) (event : Link.Event) :
    Link.replies (c.tell event).asked =
      Link.replies c.asked ++ Link.replies (c.link.step event).2 :=
  List.filterMap_append

theorem within_of_call (place : Between service s past c)
    (carries : Carries h service s (past ++ [r])) :
    Within h service s past r ({ c with ahead := rest }.tell (.call r)) := by
  have effects : c.link.step (.call r) = (⟨none, callNumber (past.length + 1), 1,
      .writing 0 (callNumber past.length) r.method⟩, [.write 0 (asking past r)]) := by
    rw [place.link, callNumber_succ]
    rfl
  have upstream : ({ c with ahead := rest }.tell (.call r)).upstream = callBytes (past ++ [r]) := by
    rw [upstream_tell, effects, callBytes_concat, ← place.upstream]
    simp [Link.written, Conversation.upstream]
  have begun : (callBytes past).length ≤ c.arrived := by
    rw [place.arrived, place.upstream]
  have arrived : c.arrived ≤ ({ c with ahead := rest }.tell (.call r)).upstream.length := by
    rw [upstream, callBytes_concat, place.arrived, place.upstream, List.length_append]
    omega
  refine ⟨?_, ?_, upstream, ?_, begun, arrived, place.read, place.returned.ge, ?_⟩
  · simp [tell, effects]
  · simp [tell, effects]
  · rw [replies_tell, effects]
    simpa [Link.replies] using place.replies
  · calc c.returned
      _ = (answerBytes service s past).length := by rw [place.returned, place.read]
      _ ≤ _ := length_le_downstream carries upstream begun arrived

theorem within_of_wrote (place : Within h service s past r c) {connection : Nat} {id : UInt64}
    {method : Method} (writing : c.link.stage = .writing connection id method) :
    Within h service s past r (c.tell (.wrote (.ok ()))) := by
  have stage : c.link.stage = .writing 0 (callNumber past.length) r.method := by
    rcases place.stage with stage | stage
    · exact stage
    · rw [stage] at writing
      cases writing
  have link := place.link
  rw [stage] at link
  have effects : c.link.step (.wrote (.ok ())) = (⟨none, callNumber (past.length + 1), 1,
      .reading 0 (callNumber past.length) r.method⟩, [.read 0]) := by
    rw [link]
    rfl
  have upstream : (c.tell (.wrote (.ok ()))).upstream = c.upstream := by
    rw [upstream_tell, effects]
    exact List.append_nil _
  have same : (c.tell (.wrote (.ok ()))).downstream h service s = c.downstream h service s := by
    rw [downstream, host, upstream]
    rfl
  refine ⟨?_, ?_, ?_, ?_, place.begun, ?_, place.read, place.unread, ?_⟩
  · simp [tell, effects]
  · simp [tell, effects]
  · rw [upstream, place.upstream]
  · rw [replies_tell, effects]
    simpa [Link.replies] using place.replies
  · rw [upstream]
    exact place.arrived
  · rw [same]
    exact place.returned

theorem within_of_carry (place : Within h service s past r c)
    (carries : Carries h service s (past ++ [r])) {count : Nat} (more : c.arrived < count)
    (there : count ≤ c.upstream.length) :
    Within h service s past r { c with arrived := count } := by
  have begun : (callBytes past).length ≤ count := place.begun.trans more.le
  refine { place with begun, arrived := there, returned := ?_ }
  rcases downstream_of_begun carries place.upstream place.begun place.arrived with
    ⟨-, back⟩ | ⟨complete, -⟩
  · calc c.returned
      _ ≤ (answerBytes service s past).length := by rw [← back]; exact place.returned
      _ ≤ _ := length_le_downstream (c := { c with arrived := count }) carries place.upstream
        begun there
  · omega

theorem between_of_read (place : Within h service s past r c)
    (carries : Carries h service s (past ++ [r])) {id : UInt64} {method : Method}
    (reading : c.link.stage = .reading 0 id method) (complete : c.arrived = c.upstream.length)
    (back : c.returned = (c.downstream h service s).length) :
    Between service s (past ++ [r])
      ({ c with read := c.returned }.tell (.received (.ok (answering service s past r)))) := by
  have stage : c.link.stage = .reading 0 (callNumber past.length) r.method := by
    rcases place.stage with stage | stage
    · rw [stage] at reading
      cases reading
    · exact stage
  have link := place.link
  rw [stage] at link
  have effects : c.link.step (.received (.ok (answering service s past r))) =
      (⟨some 0, callNumber (past.length + 1), 1, .idle⟩,
        [.reply (Link.replyOf r.method (answering service s past r).body)]) := by
    rw [link]
    exact if_pos rfl
  have all : c.returned = (answerBytes service s (past ++ [r])).length := by
    rcases downstream_of_begun carries place.upstream place.begun place.arrived with
      ⟨lacking, -⟩ | ⟨-, downstream⟩
    · omega
    · rw [back, downstream, answerBytes_concat]
  refine ⟨?_, ?_, ?_, ?_, all, rfl⟩
  · simp [tell, effects]
  · rw [upstream_tell, effects]
    exact (List.append_nil _).trans place.upstream
  · rw [replies_tell, effects, Service.run_append, List.map_append]
    exact congrArg (· ++ _) place.replies
  · rw [upstream_tell, effects]
    exact complete.trans (congrArg List.length (List.append_nil _).symm)

theorem stands_start (calls : List Request) : Stands h service s calls (start calls) :=
  .between (List.nil_append calls).symm ⟨rfl, rfl, rfl, rfl, rfl, rfl⟩

theorem stands_step (carries : Carries h service s calls) (stands : Stands h service s calls c)
    (step : Step h service s c c') : Stands h service s calls c' := by
  cases stands with
  | between split place =>
    cases step with
    | call idle next =>
      rw [next] at split
      rw [split, List.append_cons] at carries
      exact .within split (within_of_call place carries.before)
    | wrote writing =>
      rw [place.link] at writing
      cases writing
    | carry more there =>
      -- everything has arrived
      rw [place.arrived] at more
      omega
    | bring more there =>
      -- everything has come back
      rw [split] at carries
      rw [downstream, host_of_between place carries.before] at there
      rw [place.returned, place.read] at more
      exact absurd there (Nat.not_le.mpr more)
    | read reading taken enough =>
      rw [place.link] at reading
      cases reading
  | within split place =>
    have now := carries
    rw [split, List.append_cons] at now
    cases step with
    | call idle next => rcases place.stage with stage | stage <;> rw [stage] at idle <;> cases idle
    | wrote writing => exact .within split (within_of_wrote place writing)
    | carry more there => exact .within split (within_of_carry place now.before more there)
    | bring more there =>
      exact .within split { place with unread := place.unread.trans more.le, returned := there }
    | read reading taken enough =>
      rcases read_unread place now.before with
        ⟨-, e, left, shortage, short⟩ | ⟨complete, back, whole⟩
      · rw [short] at taken
        cases taken
        exact absurd shortage (by simp [enough e rfl])
      · rw [whole] at taken
        cases taken
        rw [List.append_cons] at split
        exact .between split (between_of_read place now.before reading complete back)

theorem stands_of_reached (carries : Carries h service s calls)
    (reached : ReflTransGen (Step h service s) (start calls) c) : Stands h service s calls c := by
  induction reached with
  | refl => exact stands_start calls
  | tail _ step ih => exact stands_step carries ih step

end Conversation

end ExchangeNode
