import ExchangeNode.Proofs.Wire.EarlyEnd

/-!
# Serving whoever connects

A host does not trust the other end: any bytes may come on a connection. They are frames of messages
up to some point, and from there on no frame that can be read, because it has broken off, is too long
or holds no message. `Arrive` says which messages these are.

Of the messages the host heeds the requests alone, in their order, and it answers each of them before
it looks at the next, until it accepts a subscription. For that one it sends the stream, and then it
is done. The services see what is answered and nothing else.
-/

namespace ExchangeNode

/-! ### What arrives -/

namespace Message

/-- Bytes that do not begin with the frame of a message. -/
inductive Halts : List UInt8 → Prop where
  | noLength {bytes : List UInt8} (few : bytes.length < 4) : Halts bytes
  | brokenOff {bytes} (broken : Frame.BreaksOff bytes) : Halts bytes
  | tooLong {length : Nat} {rest} (beyond : Frame.limit.toNat < length) (small : length < 2 ^ 32) :
    Halts (Frame.bigEndian length ++ rest)
  | noMessage {body rest : List UInt8} (fits : body.length ≤ Frame.limit.toNat)
    (other : ofBytes? body = none) : Halts (Frame.around body ++ rest)

/-- The messages whose frames the bytes begin with, up to the first frame that cannot be read. -/
inductive Arrive : List UInt8 → List Message → Prop where
  | none {bytes} (halts : Halts bytes) : Arrive bytes []
  | first {body rest : List UInt8} {m later} (fits : body.length ≤ Frame.limit.toNat)
    (found : ofBytes? body = some m) (next : Arrive rest later) :
    Arrive (Frame.around body ++ rest) (m :: later)

variable {bytes rest : List UInt8}

theorem read_of_halts (halts : Halts bytes) : ∃ e left, read bytes = (.error e, left) := by
  cases halts with
  | noLength few =>
    have closed := (read_error rfl).mpr (Frame.next_closed.mpr few)
    exact ⟨.connectionClosed, (read bytes).2, Prod.ext closed rfl⟩
  | brokenOff broken => exact ⟨_, _, read_of_breaksOff broken⟩
  | @tooLong length rest beyond small =>
    have refused : Frame.limit < UInt32.ofNat length := by
      rwa [UInt32.lt_iff_toNat_lt, UInt32.toNat_ofNat_of_lt' small]
    refine ⟨.tooLarge (UInt32.ofNat length) Frame.limit, rest, ?_⟩
    simp only [read, ← Frame.header_eq small, Frame.header, Frame.next, List.cons_append,
      List.nil_append, Frame.headerLength_header, if_pos refused]
  | @noMessage body rest fits other =>
    refine ⟨.malformed "not a message", rest, ?_⟩
    rw [read_around fits, readAs, other]

end Message

namespace Frame

variable {bytes rest : List UInt8}

/-- Bytes in which a frame has come are that frame and those behind it. -/
theorem eq_around_of_next {body : List UInt8} (taken : next bytes = (.ok body, rest)) :
    body.length ≤ limit.toNat ∧ bytes = around body ++ rest := by
  unfold next at taken
  split at taken
  · next a b c d later =>
    dsimp only at taken
    split at taken
    · simp at taken
    next within =>
    split at taken
    · simp at taken
    next enough =>
    simp only [Prod.mk.injEq, Except.ok.injEq] at taken
    obtain ⟨rfl, rfl⟩ := taken
    have whole : (later.take (headerLength a b c d).toNat).length = (headerLength a b c d).toNat := by
      rw [List.length_take]
      omega
    refine ⟨?_, ?_⟩
    · rw [whole]
      exact UInt32.le_iff_toNat_le.mp (UInt32.not_lt.mp within)
    · rw [around, whole, ← header_eq (UInt32.toNat_lt _), UInt32.ofNat_toNat, header_headerLength,
        List.append_assoc, List.take_append_drop]
      rfl
  · simp at taken

end Frame

namespace Message

variable {bytes rest : List UInt8}

theorem halts_of_next {e : WireError} (taken : Frame.next bytes = (.error e, rest)) :
    Halts bytes := by
  unfold Frame.next at taken
  split at taken
  · next a b c d later =>
    dsimp only at taken
    split at taken
    · next beyond =>
      have small := (Frame.headerLength a b c d).toNat_lt
      have header : Frame.bigEndian (Frame.headerLength a b c d).toNat = [a, b, c, d] := by
        rw [← Frame.header_eq small, UInt32.ofNat_toNat, Frame.header_headerLength]
      have tooLong : Halts (Frame.bigEndian (Frame.headerLength a b c d).toNat ++ later) :=
        .tooLong (UInt32.lt_iff_toNat_lt.mp beyond) small
      rwa [header] at tooLong
    · next within =>
      split at taken
      · next few => exact .brokenOff (Frame.breaksOff_of_short within few)
      · simp at taken
  · next short => exact .noLength (Frame.length_lt_of_no_header short)

/-- Any bytes are messages up to a point. -/
theorem exists_arrive (bytes : List UInt8) : ∃ messages, Arrive bytes messages := by
  match taken : Frame.next bytes with
  | (.error e, rest) => exact ⟨[], .none (halts_of_next taken)⟩
  | (.ok body, rest) =>
    obtain ⟨fits, whole⟩ := Frame.eq_around_of_next taken
    have := Frame.length_next_lt taken
    rw [whole]
    cases found : ofBytes? body with
    | none => exact ⟨[], .none (.noMessage fits found)⟩
    | some m =>
      obtain ⟨later, arrive⟩ := exists_arrive rest
      exact ⟨m :: later, .first fits found arrive⟩
termination_by bytes.length

/-- Messages that are written arrive. -/
theorem Arrive.frames {messages later : List Message} (rereads : ∀ m ∈ messages, m.Rereads)
    (fits : ∀ m ∈ messages, m.Fits) (next : Arrive rest later) :
    Arrive (frames messages ++ rest) (messages ++ later) := by
  induction messages with
  | nil => exact next
  | cons m others ih =>
    obtain ⟨rereads, othersReread⟩ := List.forall_mem_cons.mp rereads
    obtain ⟨fits, othersFit⟩ := List.forall_mem_cons.mp fits
    rw [frames_cons, List.append_assoc, Message.write, Frame.ofBody_eq fits]
    exact .first fits (ofBytes?_bytes rereads) (ih othersReread othersFit)

end Message

/-! ### Requests and what becomes of them -/

/-- A request among the messages of a connection, with its number. -/
def Message.asked? : Message → Option (UInt64 × Request)
  | ⟨id, .request r⟩ => some (id, r)
  | _ => none

/-- The items of a stream up to its first failure. -/
def RecordStream.before : RecordStream Item → List Item
  | .ok item :: later => item :: RecordStream.before later
  | _ => []

/-- What ends a stream: its first failure, or else the word that nothing follows. -/
def RecordStream.ending : RecordStream Item → Body
  | [] => .item .finish
  | .ok _ :: later => RecordStream.ending later
  | .error e :: _ => .response (.ofError e)

/-- A request that has been answered. -/
structure Answered where
  id : UInt64
  call : CallResult

namespace Answered

def asking (a : Answered) : UInt64 × Request := (a.id, a.call.request)

/-- The stream that it has opened. -/
def stream? (a : Answered) : Option (RecordStream Item) :=
  if a.call.request.isSubscription then
    a.call.result.toOption.map (Subscription.items a.call.request.method)
  else none

/-- The answer: a response, or for a subscription that is accepted the word that it is, the items of
the stream and one message that ends it. All of them have the number of the request. -/
def messages (a : Answered) : List Message :=
  match a.stream? with
  | none => [⟨a.id, .response a.call.response⟩]
  | some stream =>
    ⟨a.id, .response (.ack .done)⟩ ::
      (RecordStream.before stream).map (fun item => (⟨a.id, .item item⟩ : Message)) ++
      [⟨a.id, RecordStream.ending stream⟩]

end Answered

theorem streamBodies_eq {α : Type} (item : α → Item) (stream : RecordStream α) :
    streamBodies item stream =
      (RecordStream.before (stream.map (Except.map item))).map Body.item ++
        [RecordStream.ending (stream.map (Except.map item))] := by
  induction stream with
  | nil => rfl
  | cons first later ih =>
    cases first with
    | ok a => exact congrArg (Body.item (item a) :: ·) ih
    | error e => rfl

theorem RecordStream.mem_of_mem_before {stream : RecordStream Item} {item : Item}
    (member : item ∈ RecordStream.before stream) : .ok item ∈ stream := by
  induction stream with
  | nil => cases member
  | cons first later ih =>
    cases first with
    | error e => cases member
    | ok other =>
      rcases List.mem_cons.mp member with rfl | member
      · exact List.mem_cons_self
      · exact List.mem_cons_of_mem _ (ih member)

/-- No stream of a service says by itself that nothing follows. -/
theorem Subscription.finish_not_mem_items (m : Method) (answer : m.Answer) :
    .ok Item.finish ∉ Subscription.items m answer := by
  cases m with
  | subscribe | subscribeBus =>
    intro member
    obtain ⟨record, -, equal⟩ := List.mem_map.mp member
    cases record <;> cases equal
  | _ => exact List.not_mem_nil

theorem Method.bodies_of_subscription {m : Method} (subscription : m.isSubscription)
    (answer : m.Answer) :
    m.bodies (.ok answer) =
      .response (.ack .done) ::
        ((RecordStream.before (Subscription.items m answer)).map Body.item ++
          [RecordStream.ending (Subscription.items m answer)]) := by
  cases m with
  | subscribe side => exact congrArg _ (streamBodies_eq Item.advert answer)
  | subscribeBus => exact congrArg _ (streamBodies_eq Item.message answer)
  | _ => cases subscription

namespace Answered

/-- What is sent for a request, whether or not it has opened a stream. -/
theorem messages_eq (a : Answered) :
    a.messages = (a.call.request.method.bodies a.call.result).map fun body => ⟨a.id, body⟩ := by
  obtain ⟨id, r, result⟩ := a
  rw [messages, stream?]
  by_cases subscription : r.isSubscription
  · cases result with
    | error e => simp [subscription, Except.toOption, Method.bodies_error, CallResult.response,
        Method.responseTo]
    | ok answer =>
      simp [subscription, Except.toOption, Method.bodies_of_subscription subscription]
  · have unary : r.method.isSubscription = false := Bool.eq_false_iff.mpr subscription
    simp [subscription, Method.bodies_of_call unary, CallResult.response]

theorem stream?_isSome (a : Answered) :
    a.stream?.isSome = (a.call.request.isSubscription && a.call.result.toBool) := by
  obtain ⟨id, r, result⟩ := a
  rw [stream?]
  by_cases subscription : r.isSubscription
  · cases result <;> simp [subscription, Except.toOption, Except.toBool]
  · simp [subscription]

/-- The end of a stream is said once, by its last message. -/
theorem finish_not_mem_before {a : Answered} {stream : RecordStream Item}
    (opened : a.stream? = some stream) : Item.finish ∉ RecordStream.before stream := by
  intro member
  rw [stream?] at opened
  split at opened
  · obtain ⟨answer, -, rfl⟩ := Option.map_eq_some_iff.mp opened
    exact Subscription.finish_not_mem_items _ answer (RecordStream.mem_of_mem_before member)
  · cases opened

end Answered

namespace Hosted

variable {σ : Type}

/-- What becomes of requests, each handled in the state that the one before it has left. One for a
service that is hosted is put to it, and the others are refused. -/
inductive Handles (h : Hosted) (service : Service σ) : σ → List Answered → σ → Prop where
  | none {s} : Handles h service s [] s
  | put {s id r later t} (hosted : h.hosts r.method)
    (next : Handles h service (service.answer s r).2 later t) :
    Handles h service s (⟨id, r, (service.answer s r).1⟩ :: later) t
  | refuse {s id later t} {r : Request} (elsewhere : h.hosts r.method = false)
    (next : Handles h service s later t) :
    Handles h service s (⟨id, r, .error (missing r.method)⟩ :: later) t

/-- What a host does with messages. -/
structure Serves (h : Hosted) (service : Service σ) (s : σ) (messages : List Message)
    (answered : List Answered) (hosting : Hosting σ) : Prop where
  /-- Each request that is answered is put to the services once, if they are hosted. -/
  handles : h.Handles service s answered hosting.state
  served : hosting.served = (answered.map (·.call.request)).filter (h.hosts ·.method)
  /-- The requests are answered from the first one on, and nothing else is sent. -/
  asked : answered.map Answered.asking <+: messages.filterMap Message.asked?
  sent : hosting.sent = answered.flatMap Answered.messages
  /-- Nothing is answered behind a subscription that has been accepted. -/
  ends : answered.Pairwise fun a _ => a.stream? = none
  /-- Unless there is one, every request is answered. -/
  goesOn : (∀ a ∈ answered, a.stream? = none) →
    answered.map Answered.asking = messages.filterMap Message.asked?

variable {h : Hosted} {service : Service σ} {s : σ} {messages : List Message}
  {bytes rest : List UInt8} {id : UInt64} {r : Request}

/-- A request with the answer of the host. -/
def handle (h : Hosted) (service : Service σ) (s : σ) (id : UInt64) (r : Request) : Answered :=
  ⟨id, r, (h.answer service s r).1⟩

theorem handles_first {later : List Answered} {t : σ} (id : UInt64) (r : Request)
    (next : h.Handles service (h.answer service s r).2.2 later t) :
    h.Handles service s (h.handle service s id r :: later) t := by
  rw [handle]
  cases hosted : h.hosts r.method with
  | true =>
    rw [answer_of_hosted hosted] at next ⊢
    exact .put hosted next
  | false =>
    rw [answer_of_elsewhere hosted] at next ⊢
    exact .refuse hosted next

theorem served_answer (r : Request) :
    (h.answer service s r).2.1 = [r].filter (h.hosts ·.method) := by
  by_cases hosted : h.hosts r.method <;> simp [answer, hosted]

/-- The first request, and what comes of those behind it. -/
theorem connection_of_asked (taken : Message.read bytes = (.ok ⟨id, .request r⟩, rest)) :
    h.connection service s bytes =
      let first := h.handle service s id r
      let answer := h.answer service s r
      if first.stream?.isSome then ⟨first.messages, answer.2.1, answer.2.2⟩
      else
        let later := h.connection service answer.2.2 rest
        ⟨first.messages ++ later.sent, answer.2.1 ++ later.served, later.state⟩ := by
  rw [connection_of_request taken]
  simp only [handle, Answered.stream?_isSome, Answered.messages_eq]

/-- A subscription that is accepted is the last request. -/
theorem serves_opening (messages : List Message)
    (opens : (h.handle service s id r).stream?.isSome) :
    h.Serves service s (⟨id, .request r⟩ :: messages) [h.handle service s id r]
      ⟨(h.handle service s id r).messages, (h.answer service s r).2.1,
        (h.answer service s r).2.2⟩ where
  handles := handles_first id r .none
  served := served_answer r
  asked := List.cons_prefix_cons.mpr ⟨rfl, List.nil_prefix⟩
  sent := (List.append_nil _).symm
  ends := List.pairwise_singleton ..
  goesOn silent := by
    rw [silent _ (List.mem_singleton.mpr rfl)] at opens
    cases opens

/-- Any other request is answered before those behind it. -/
theorem serves_first {later : List Answered} {hosting : Hosting σ}
    (silent : (h.handle service s id r).stream? = none)
    (serves : h.Serves service (h.answer service s r).2.2 messages later hosting) :
    h.Serves service s (⟨id, .request r⟩ :: messages) (h.handle service s id r :: later)
      ⟨(h.handle service s id r).messages ++ hosting.sent,
        (h.answer service s r).2.1 ++ hosting.served, hosting.state⟩ where
  handles := handles_first id r serves.handles
  served := by
    rw [served_answer, serves.served, ← List.filter_append]
    rfl
  asked := List.cons_prefix_cons.mpr ⟨rfl, serves.asked⟩
  sent := congrArg _ serves.sent
  ends := List.pairwise_cons.mpr ⟨fun _ _ => silent, serves.ends⟩
  goesOn allSilent := congrArg _ (serves.goesOn (List.forall_mem_cons.mp allSilent).2)

theorem exists_serves (h : Hosted) (service : Service σ) (arrive : Message.Arrive bytes messages)
    (s : σ) :
    ∃ answered, h.Serves service s messages answered (h.connection service s bytes) := by
  induction arrive generalizing s with
  | none halts =>
    obtain ⟨e, left, taken⟩ := Message.read_of_halts halts
    rw [connection_of_error taken]
    exact ⟨[], .none, rfl, List.nil_prefix, rfl, .nil, fun _ => rfl⟩
  | @first body rest m later fits found next ih =>
    have taken : Message.read (Frame.around body ++ rest) = (.ok m, rest) := by
      rw [Message.read_around fits, Message.readAs, found]
    obtain ⟨id, content⟩ := m
    cases content with
    | request r =>
      rw [connection_of_asked taken]
      dsimp only
      by_cases opens : (h.handle service s id r).stream?.isSome
      · rw [if_pos opens]
        exact ⟨_, serves_opening later opens⟩
      · obtain ⟨answered, serves⟩ := ih (h.answer service s r).2.2
        rw [if_neg opens]
        exact ⟨_, serves_first (Option.not_isSome_iff_eq_none.mp opens) serves⟩
    | response | item =>
      obtain ⟨answered, serves⟩ := ih s
      rw [connection_of_other taken (by simp)]
      exact ⟨answered, { serves with asked := serves.asked, goesOn := serves.goesOn }⟩

/-- Any bytes are messages up to a point, and of these a host serves the requests, up to the first
subscription that it accepts. It ends the stream of that one once. If it hosts both services, it
puts to them every request that it answers. -/
theorem serves_what_arrives (h : Hosted) (service : Service σ) (s : σ) :
    (∀ bytes, ∃ messages, Message.Arrive bytes messages) ∧
    ∀ bytes messages, Message.Arrive bytes messages →
      ∃ answered, h.Serves service s messages answered (h.connection service s bytes) ∧
        (∀ a ∈ answered, ∀ stream, a.stream? = some stream →
          Item.finish ∉ RecordStream.before stream) ∧
        ((∀ m, h.hosts m) →
          (h.connection service s bytes).served = answered.map (·.call.request)) := by
  refine ⟨Message.exists_arrive, fun bytes messages arrive => ?_⟩
  obtain ⟨answered, serves⟩ := exists_serves h service arrive s
  refine ⟨answered, serves, fun a _ stream opened => ?_, fun both => ?_⟩
  · exact Answered.finish_not_mem_before opened
  · rw [serves.served, List.filter_eq_self.mpr fun r _ => both r.method]

/-- A request that is for another host, an item, two subscriptions, and a frame with nothing in
it. -/
theorem serves_first_subscription :
    let message : BusMessage := ⟨1, 2, 3, 50, 0, "text", "\"hello\"", none⟩
    let messages : List Message :=
      [⟨5, .request (.queryNode 4)⟩, ⟨6, .item .finish⟩, ⟨7, .request (.subscribeBus ⟨9, 50, ""⟩)⟩,
        ⟨8, .request (.subscribeBus ⟨9, 50, ""⟩)⟩]
    let bytes := frames messages ++ Frame.around []
    let hosted : Hosted := ⟨false, true⟩
    Message.Arrive bytes messages ∧
      ∃ answered, hosted.Serves (Subscription.faltering message) () messages answered
        (hosted.connection (Subscription.faltering message) () bytes) := by
  intro message messages bytes hosted
  have halts : Message.Halts (Frame.around [] ++ []) := .noMessage (by decide) (by decide +kernel)
  have rereads : ∀ m ∈ messages, m.Rereads := by decide
  have fits : ∀ m ∈ messages, m.Fits := by decide +kernel
  have arrive := Message.Arrive.frames rereads fits (.none halts)
  rw [List.append_nil] at arrive
  obtain ⟨-, serves⟩ := serves_what_arrives hosted (Subscription.faltering message) ()
  obtain ⟨answered, serves, -⟩ := serves bytes messages arrive
  exact ⟨arrive, answered, serves⟩

end Hosted

end ExchangeNode
