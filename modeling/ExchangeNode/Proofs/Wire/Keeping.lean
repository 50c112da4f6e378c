import Mathlib.Logic.Function.Basic
import Mathlib.Logic.Relation
import ExchangeNode.Proofs.Wire.Hosting

/-!
# Keeping a connection

The calls of a client go over one link, and any of them may fail, be given up wherever it stands, or
find a message that belongs to another call. The service answers on the connection on which it was
asked, at any time, also when nobody waits for the answer any more, but it answers no request twice.

A link numbers its requests, but it is not the numbers that keep an answer away from the wrong call.
A connection is free of requests without an answer, and of answers that nobody has read, whenever a
request is put on it: every way out of a call that could leave one behind leaves no connection
behind either.
-/

namespace ExchangeNode

open Relation (ReflTransGen)

/-- A reply that the service has given. -/
inductive Reply.Conveyed : Reply → Prop where
  | ok (response : Response) : Conveyed (.ok response)
  | remote (code : Int32) (message : String) : Conveyed (.error (.remote code message))

/-- What an answer with this body says to whoever has asked: the response in it, or the failure that
the service reports. -/
inductive Body.Conveys : Body → Reply → Prop where
  | ok {response : Response} (succeeded : ∀ code message, response ≠ .error code message) :
    Conveys (.response response) (.ok response)
  | remote (code : Int32) (message : String) :
    Conveys (.response (.error code message)) (.error (.remote code message))

namespace Link

/-- A caller is told what the answer says, unless that is nothing that a service says. -/
theorem conveys_replyOf {method : Method} {body : Body}
    (conveyed : (replyOf method body).Conveyed) : body.Conveys (replyOf method body) := by
  cases body with
  | request | item => cases conveyed
  | response response =>
    cases response with
    | error code message => exact .remote code message
    | _ => exact .ok nofun

/-- An event with which the call under way comes to nothing, and the failure that its caller learns
of. -/
inductive Fails (l : Link) : Event → Option WireError → Prop where
  | dialed {r e} (dialing : l.stage = .dialing r) : Fails l (.dialed (.error e)) (some e)
  | wrote {connection id method e} (writing : l.stage = .writing connection id method) :
    Fails l (.wrote (.error e)) (some e)
  | received {connection id method e} (reading : l.stage = .reading connection id method) :
    Fails l (.received (.error e)) (some e)
  /-- A message comes that does not belong to the call. -/
  | stray {connection id method m} (reading : l.stage = .reading connection id method)
    (other : m.id ≠ id) : Fails l (.received (.ok m)) (some (.unexpectedResponse method.name))
  /-- The call is given up. -/
  | abandon (underway : l.stage ≠ .idle) : Fails l .abandon none

/-- A link writes on the connection that it has kept or on the one that it has just dialed. -/
theorem of_mem_write {l : Link} {event : Event} {connection : Nat} {m : Message}
    (writes : .write connection m ∈ (l.step event).2) :
    l.stage = .idle ∧ l.kept = some connection ∨ connection = l.nextConnection := by
  unfold step at writes
  split at writes
  · next r idle =>
    split at writes
    · next kept there =>
      obtain ⟨rfl, -⟩ := Effect.write.inj (List.mem_singleton.mp writes)
      exact .inl ⟨idle, there⟩
    · simp at writes
  · obtain ⟨rfl, -⟩ := Effect.write.inj (List.mem_singleton.mp writes)
    exact .inr rfl
  -- No other event sends anything.
  all_goals
    try split at writes
    all_goals simp [fail] at writes

end Link

/-! ### A link and the connections it has used -/

/-- An answer that is on a connection, with the place of its request among the requests there. -/
structure Answer where
  place : Nat
  body : Body

/-- One connection in the course of time. -/
structure Wire where
  /-- The requests that have been put on it, each of them wholly or in part. -/
  asked : List Message
  answers : List Answer
  /-- How many of the answers have been read. -/
  read : Nat

namespace Wire

def empty : Wire := ⟨[], [], 0⟩

def ask (wire : Wire) (m : Message) : Wire := { wire with asked := wire.asked ++ [m] }

def answer (wire : Wire) (place : Nat) (body : Body) : Wire :=
  { wire with answers := wire.answers ++ [⟨place, body⟩] }

/-- The next answer is read. -/
def taken (wire : Wire) : Wire := { wire with read := wire.read + 1 }

/-- The message that the next answer comes in. -/
def next? (wire : Wire) : Option Message := do
  let answer ← wire.answers[wire.read]?
  let m ← wire.asked[answer.place]?
  some ⟨m.id, answer.body⟩

/-- Every request has been answered, and every answer has been read. -/
structure Settled (wire : Wire) : Prop where
  answered : wire.answers.map Answer.place = List.range wire.asked.length
  read : wire.read = wire.asked.length

end Wire

/-- A call that has been begun. -/
structure Attempt where
  request : Request
  /-- The connection that its request was put on, and the place of the request there. -/
  place : Option (Nat × Nat)
  /-- What the call has returned. -/
  reply : Option Reply

namespace Attempt

variable (wires : Nat → Wire)

/-- The answer in a body is the one to the request of a call, and it has been read. -/
structure HasAnswer (a : Attempt) (connection place : Nat) (id : UInt64) (body : Body) : Prop where
  placed : a.place = some (connection, place)
  asked : (wires connection).asked[place]? = some ⟨id, .request a.request⟩
  answered : (wires connection).answers[place]? = some ⟨place, body⟩
  read : place < (wires connection).read

/-- If the call has returned what the service says, then that is the answer to its own request. -/
def Rightful (a : Attempt) : Prop :=
  ∀ reply, a.reply = some reply → reply.Conveyed → ∃ connection place id body,
    a.HasAnswer wires connection place id body ∧ body.Conveys reply

end Attempt

/-- A link, the connections it has used and the calls that were made over it. -/
structure Correspondence where
  link : Link
  wires : Nat → Wire
  /-- The calls that wait for the one under way. -/
  waiting : List Request
  /-- The calls that have been begun, the latest first. -/
  attempts : List Attempt

namespace Correspondence

def start : Correspondence := ⟨.connected, fun _ => .empty, [], []⟩

def onWire (w : Correspondence) (connection : Nat) (f : Wire → Wire) : Correspondence :=
  { w with wires := Function.update w.wires connection (f (w.wires connection)) }

def onLatest (w : Correspondence) (f : Attempt → Attempt) : Correspondence :=
  { w with attempts := w.attempts.modifyHead f }

def perform (w : Correspondence) : Link.Effect → Correspondence
  | .write connection m =>
    let place := (w.wires connection).asked.length
    (w.onLatest fun a => { a with place := some (connection, place) }).onWire connection (·.ask m)
  | .reply reply => w.onLatest fun a => { a with reply := some reply }
  | _ => w

/-- An event happens to the link. -/
def tell (w : Correspondence) (event : Link.Event) : Correspondence :=
  (w.link.step event).2.foldl perform { w with link := (w.link.step event).1 }

/-- The call that waits is begun. -/
def begin (w : Correspondence) (r : Request) (waiting : List Request) : Correspondence :=
  ({ w with waiting, attempts := ⟨r, none, none⟩ :: w.attempts } : Correspondence).tell (.call r)

inductive Step : Correspondence → Correspondence → Prop where
  | wait {w} (r : Request) : Step w { w with waiting := w.waiting ++ [r] }
  /-- A call is given up before it has been begun. -/
  | leave {w r} (before after : List Request) (waits : w.waiting = before ++ r :: after) :
    Step w { w with waiting := before ++ after }
  | call {w r} (before after : List Request) (idle : w.link.stage = .idle)
    (waits : w.waiting = before ++ r :: after) : Step w (w.begin r (before ++ after))
  | dialed {w r} (dialing : w.link.stage = .dialing r) : Step w (w.tell (.dialed (.ok ())))
  | wrote {w connection id method} (writing : w.link.stage = .writing connection id method) :
    Step w (w.tell (.wrote (.ok ())))
  /-- The service answers a request that it has not answered yet. -/
  | answer {w} (connection place : Nat) (body : Body)
    (asked : place < (w.wires connection).asked.length)
    (first : place ∉ (w.wires connection).answers.map Answer.place) :
    Step w (w.onWire connection (·.answer place body))
  | read {w connection id method m} (reading : w.link.stage = .reading connection id method)
    (next : (w.wires connection).next? = some m) :
    Step w ((w.onWire connection Wire.taken).tell (.received (.ok m)))
  /-- A failure of the connection is none that the service has reported. -/
  | fail {w event e?} (fails : w.link.Fails event e?)
    (own : ∀ e ∈ e?, ¬ Reply.Conveyed (.error e)) : Step w (w.tell event)

def Reached (w : Correspondence) : Prop := ReflTransGen Step start w

/-- What holds of a link at any time. -/
structure Orderly (w : Correspondence) : Prop where
  own : ∀ a ∈ w.attempts, a.Rightful w.wires
  /-- A connection is used again only when nothing is open on it. -/
  reused : ∀ w' connection, Step w w' →
    (w'.wires connection).asked ≠ (w.wires connection).asked → (w.wires connection).Settled
  /-- The connection of a call that has read its answer is there for the next one. -/
  kept : ∀ a ∈ w.attempts.head?, ∀ connection place, a.place = some (connection, place) →
    place < (w.wires connection).read → w.link.stage = .idle ∧ ∀ r,
      (w.link.step (.call r)).2 = [.write connection ⟨w.link.nextId, .request r⟩]

end Correspondence

/-! ### Wires -/

theorem getElem?_of_prefix {α : Type} {before all : List α} {i : Nat} {a : α}
    (part : before <+: all) (there : before[i]? = some a) : all[i]? = some a := by
  obtain ⟨rest, rfl⟩ := part
  rw [List.getElem?_append_left (List.getElem?_eq_some_iff.mp there).1, there]

namespace Wire

variable {wire wire' : Wire}

/-- The wire has gone on as another one. -/
structure Grows (wire wire' : Wire) : Prop where
  asked : wire.asked <+: wire'.asked
  answers : wire.answers <+: wire'.answers
  read : wire.read ≤ wire'.read

theorem Grows.refl (wire : Wire) : wire.Grows wire :=
  ⟨List.prefix_rfl, List.prefix_rfl, le_rfl⟩

theorem grows_ask (m : Message) (wire : Wire) : wire.Grows (wire.ask m) :=
  ⟨List.prefix_append .., List.prefix_rfl, le_rfl⟩

theorem grows_answer (place : Nat) (body : Body) (wire : Wire) :
    wire.Grows (wire.answer place body) :=
  ⟨List.prefix_rfl, List.prefix_append .., le_rfl⟩

theorem grows_taken (wire : Wire) : wire.Grows wire.taken :=
  ⟨List.prefix_rfl, List.prefix_rfl, Nat.le_succ _⟩

theorem settled_empty : empty.Settled := ⟨rfl, rfl⟩

/-- The last request is the only one that may lack its answer, which has not been read. -/
structure Awaits (wire : Wire) (place : Nat) (m : Message) : Prop where
  asked : ∃ before : List Message, wire.asked = before ++ [m] ∧ before.length = place
  answered : wire.answers.map Answer.place = List.range place ∨
    wire.answers.map Answer.place = List.range (place + 1)
  read : wire.read = place

theorem awaits_ask (settled : wire.Settled) (m : Message) :
    (wire.ask m).Awaits wire.asked.length m :=
  ⟨⟨wire.asked, rfl, rfl⟩, .inl settled.answered, settled.read⟩

theorem Awaits.getElem?_asked {place : Nat} {m : Message} (awaits : wire.Awaits place m) :
    wire.asked[place]? = some m := by
  obtain ⟨before, split, count⟩ := awaits.asked
  rw [split, ← count, List.getElem?_concat_length]

theorem mem_answered_of_settled {place : Nat} (settled : wire.Settled)
    (asked : place < wire.asked.length) : place ∈ wire.answers.map Answer.place := by
  rw [settled.answered]
  exact List.mem_range.mpr asked

theorem awaits_answer {k place : Nat} {m : Message} {body : Body} (awaits : wire.Awaits k m)
    (asked : place < wire.asked.length) (first : place ∉ wire.answers.map Answer.place) :
    (wire.answer place body).Awaits k m := by
  obtain ⟨⟨before, split, count⟩, answered, read⟩ := awaits
  rw [split, List.length_append, List.length_singleton, count] at asked
  refine ⟨⟨before, split, count⟩, .inr ?_, read⟩
  -- Only the last request can lack its answer.
  rcases answered with answered | answered <;> rw [answered, List.mem_range] at first
  · obtain rfl : place = k := by omega
    rw [answer, List.map_append, answered, List.range_succ]
    rfl
  · omega

/-- The next answer is the one that is awaited. -/
theorem next_of_awaits {k : Nat} {m found : Message} (awaits : wire.Awaits k m)
    (next : wire.next? = some found) : ∃ body, found = ⟨m.id, body⟩ ∧
      wire.answers[k]? = some ⟨k, body⟩ ∧ wire.taken.Settled := by
  have there := awaits.getElem?_asked
  obtain ⟨⟨before, split, count⟩, answered, read⟩ := awaits
  simp only [next?, read, Option.bind_eq_bind, Option.bind_eq_some_iff, Option.some.injEq] at next
  obtain ⟨a, came, m', asked, rfl⟩ := next
  have place : (wire.answers.map Answer.place)[k]? = some a.place := by
    rw [List.getElem?_map, came]
    rfl
  rcases answered with answered | answered
  · -- Nothing has come.
    simp [answered] at place
  rw [answered, List.getElem?_range (Nat.lt_succ_self k), Option.some.injEq] at place
  rw [← place, there, Option.some.injEq] at asked
  refine ⟨a.body, by rw [asked], by rw [came, place], ?_, ?_⟩
  · simpa [taken, split, count] using answered
  · simp [taken, split, count, read]

end Wire

namespace Attempt

variable {wires wires' : Nat → Wire} {a : Attempt}

theorem HasAnswer.mono {connection place : Nat} {id : UInt64} {body : Body}
    (answered : a.HasAnswer wires connection place id body)
    (grows : (wires connection).Grows (wires' connection)) :
    a.HasAnswer wires' connection place id body where
  placed := answered.placed
  asked := getElem?_of_prefix grows.asked answered.asked
  answered := getElem?_of_prefix grows.answers answered.answered
  read := answered.read.trans_le grows.read

theorem Rightful.mono (rightful : a.Rightful wires)
    (grows : ∀ connection, (wires connection).Grows (wires' connection)) : a.Rightful wires' := by
  intro reply returned conveyed
  obtain ⟨connection, place, id, body, answered, conveys⟩ := rightful reply returned conveyed
  exact ⟨connection, place, id, body, answered.mono (grows connection), conveys⟩

theorem rightful_of_not_conveyed (own : ∀ reply ∈ a.reply, ¬ reply.Conveyed) :
    a.Rightful wires :=
  fun reply returned conveyed => absurd conveyed (own reply returned)

end Attempt

namespace Correspondence

variable {w w' : Correspondence} {a : Attempt} {connection place : Nat} {id : UInt64} {body : Body}

theorem wires_onWire (w : Correspondence) (connection : Nat) (f : Wire → Wire) :
    (w.onWire connection f).wires connection = f (w.wires connection) :=
  Function.update_self ..

theorem wires_onWire_of_ne (w : Correspondence) (f : Wire → Wire) {other : Nat}
    (another : other ≠ connection) : (w.onWire connection f).wires other = w.wires other :=
  Function.update_of_ne another ..

/-- How every wire has changed with one of them. -/
theorem rel_onWire {P : Wire → Wire → Prop} {f : Wire → Wire} (same : ∀ wire, P wire wire)
    (changed : ∀ wire, P wire (f wire)) (w : Correspondence) (connection other : Nat) :
    P (w.wires other) ((w.onWire connection f).wires other) := by
  by_cases here : other = connection
  · rw [here, wires_onWire]
    exact changed _
  · rw [wires_onWire_of_ne w f here]
    exact same _

/-- A connection that has been dialed is none of those that have not. -/
theorem unused_onWire {dialed : Nat} (unused : ∀ other, dialed ≤ other → w.wires other = .empty)
    (before : connection < dialed) (f : Wire → Wire) :
    ∀ other, dialed ≤ other → (w.onWire connection f).wires other = .empty := by
  intro other fresh
  have another : other ≠ connection := by omega
  rw [wires_onWire_of_ne w f another]
  exact unused other fresh

/-! ### Where a link stands -/

section

variable (l : Link) (wires : Nat → Wire) (attempts : List Attempt)

/-- No call is under way. Nothing is open on the connection that is kept, and if the last call has
read its answer, that is the connection it was read from. -/
structure Resting : Prop where
  settled : ∀ connection ∈ l.kept, connection < l.nextConnection ∧ (wires connection).Settled
  kept : ∀ a ∈ attempts.head?, ∀ connection place, a.place = some (connection, place) →
    place < (wires connection).read → l.kept = some connection

structure Dialing (r : Request) (rest : List Attempt) : Prop where
  taken : l.kept = none
  begun : attempts = ⟨r, none, none⟩ :: rest

/-- A request is on its way, or its answer is. -/
structure Asking (connection : Nat) (id : UInt64) (r : Request) (place : Nat)
    (rest : List Attempt) : Prop where
  taken : l.kept = none
  dialed : connection < l.nextConnection
  begun : attempts = ⟨r, some (connection, place), none⟩ :: rest
  awaits : (wires connection).Awaits place ⟨id, .request r⟩

/-- What a stage says of the connections and of the calls. -/
def Stands : CallStage → Prop
  | .idle => Resting l wires attempts
  | .dialing r => ∃ rest, Dialing l attempts r rest
  | .writing connection id method | .reading connection id method =>
    ∃ r place rest, r.method = method ∧ Asking l wires attempts connection id r place rest

end

/-- What every step leaves true. -/
structure Holds (w : Correspondence) : Prop where
  own : ∀ a ∈ w.attempts, a.Rightful w.wires
  unused : ∀ connection, w.link.nextConnection ≤ connection → w.wires connection = .empty
  stands : Stands w.link w.wires w.attempts w.link.stage

theorem holds_start : start.Holds where
  own _ called := absurd called List.not_mem_nil
  unused _ _ := rfl
  stands := by
    refine ⟨fun connection kept => ?_, fun _ latest => absurd latest (Option.not_mem_none _)⟩
    obtain rfl : 0 = connection := Option.some.inj kept
    exact ⟨Nat.one_pos, Wire.settled_empty⟩

theorem Holds.standing (holds : w.Holds) {stage : CallStage} (stands : w.link.stage = stage) :
    Stands w.link w.wires w.attempts stage :=
  stands ▸ holds.stands

theorem Holds.earlier (holds : w.Holds) {rest : List Attempt} (attempts : w.attempts = a :: rest) :
    ∀ b ∈ rest, b.Rightful w.wires := by
  have own := holds.own
  rw [attempts] at own
  exact (List.forall_mem_cons.mp own).2

/-- What a call under way has left so far. -/
theorem exists_underway (holds : w.Holds) (underway : w.link.stage ≠ .idle) :
    w.link.kept = none ∧ ∃ r place? rest, w.attempts = ⟨r, place?, none⟩ :: rest ∧
      ∀ connection place, place? = some (connection, place) →
        (w.wires connection).read ≤ place := by
  cases stage : w.link.stage with
  | idle => exact absurd stage underway
  | dialing r =>
    obtain ⟨rest, dialing⟩ := holds.standing stage
    exact ⟨dialing.taken, r, none, rest, dialing.begun, nofun⟩
  | writing | reading =>
    obtain ⟨r, place, rest, -, asking⟩ := holds.standing stage
    refine ⟨asking.taken, r, _, rest, asking.begun, ?_⟩
    rintro _ _ ⟨⟩
    exact asking.awaits.read.le

/-- A call that comes to nothing leaves no connection. -/
theorem tell_of_fails {event : Link.Event} {e? : Option WireError}
    (fails : w.link.Fails event e?) : w.link.stage ≠ .idle ∧ ∃ l : Link,
      w.tell event = { e?.elim w (fun e => w.perform (.reply (.error e))) with link := l } ∧
      l.stage = .idle ∧ l.kept = w.link.kept ∧ w.link.nextConnection ≤ l.nextConnection := by
  have underway : w.link.stage ≠ .idle := by
    cases fails with
    | dialed stage | wrote stage | received stage | stray stage other => simp [stage]
    | abandon underway => exact underway
  refine ⟨underway, ?_⟩
  let ended : Link := { w.link with stage := .idle }
  cases fails with
  | dialed stage | wrote stage | received stage | stray stage other =>
    refine ⟨ended, ?_, rfl, rfl, le_rfl⟩
    simp [*, tell, Link.step, Link.fail, perform, onLatest, ended]
  | abandon =>
    cases stage : w.link.stage with
    | idle => exact absurd stage underway
    | dialing r =>
      exact ⟨{ ended with nextConnection := w.link.nextConnection + 1 },
        by simp [tell, Link.step, stage, perform, ended], rfl, rfl, Nat.le_succ _⟩
    | writing | reading =>
      exact ⟨ended, by simp [tell, Link.step, stage, perform, ended], rfl, rfl, le_rfl⟩

theorem holds_of_fails (holds : w.Holds) {event : Link.Event} {e? : Option WireError}
    (fails : w.link.Fails event e?) (own : ∀ e ∈ e?, ¬ Reply.Conveyed (.error e)) :
    (w.tell event).Holds := by
  obtain ⟨busy, l, told, idle, kept, dialed⟩ := tell_of_fails fails
  obtain ⟨taken, r, place?, rest, underway, unread⟩ := exists_underway holds busy
  have told : w.tell event = ⟨l, w.wires, w.waiting, ⟨r, place?, e?.map .error⟩ :: rest⟩ := by
    rw [told]
    cases e? <;> simp [perform, onLatest, underway]
  have resting : Resting l w.wires (⟨r, place?, e?.map .error⟩ :: rest) := by
    refine ⟨?_, ?_⟩
    · rw [kept, taken]
      nofun
    · rintro _ ⟨⟩ connection place placed read
      exact absurd (unread connection place placed) (Nat.not_le.mpr read)
  have latest : Attempt.Rightful w.wires ⟨r, place?, e?.map .error⟩ := by
    refine Attempt.rightful_of_not_conveyed fun reply returned => ?_
    obtain ⟨e, failed, rfl⟩ := Option.mem_map.mp returned
    exact own e failed
  rw [told]
  refine ⟨List.forall_mem_cons.mpr ⟨latest, holds.earlier underway⟩,
    fun connection fresh => ?_, ?_⟩
  · exact holds.unused connection (dialed.trans fresh)
  · show Stands l _ _ l.stage
    rw [idle]
    exact resting

/-- A request is put on a connection on which nothing is open. -/
theorem holds_of_send {l : Link} {event : Link.Event} {r : Request} {rest : List Attempt}
    (own : ∀ a ∈ rest, a.Rightful w.wires)
    (unused : ∀ connection, l.nextConnection ≤ connection → w.wires connection = .empty)
    (attempts : w.attempts = ⟨r, none, none⟩ :: rest)
    (step : w.link.step event = l.send connection r) (taken : l.kept = none)
    (dialed : connection < l.nextConnection) (settled : (w.wires connection).Settled) :
    (w.tell event).Holds := by
  let m : Message := ⟨l.nextId, .request r⟩
  let sent := w.onWire connection (·.ask m)
  have told : w.tell event = ⟨(l.send connection r).1, sent.wires, w.waiting,
      ⟨r, some (connection, (w.wires connection).asked.length), none⟩ :: rest⟩ := by
    simp [tell, step, Link.send, perform, onWire, onLatest, attempts, m, sent]
  have grows : ∀ other, (w.wires other).Grows (sent.wires other) :=
    rel_onWire .refl (Wire.grows_ask m) w connection
  have awaits : (sent.wires connection).Awaits (w.wires connection).asked.length m := by
    rw [wires_onWire]
    exact Wire.awaits_ask settled m
  rw [told]
  exact ⟨List.forall_mem_cons.mpr ⟨Attempt.rightful_of_not_conveyed nofun,
      fun a earlier => (own a earlier).mono grows⟩,
    unused_onWire unused dialed (·.ask m), r, _, rest, rfl, taken, dialed, rfl, awaits⟩

/-- A call that has been begun is sent over the connection that was kept, if there is one. -/
theorem holds_begin (holds : w.Holds) (idle : w.link.stage = .idle) (r : Request)
    (waiting : List Request) : (w.begin r waiting).Holds := by
  have resting : Resting w.link w.wires w.attempts := holds.standing idle
  cases there : w.link.kept with
  | some connection =>
    obtain ⟨dialed, settled⟩ := resting.settled connection there
    let l : Link := { w.link with kept := none }
    have step : w.link.step (.call r) = l.send connection r := by
      simp [Link.step, idle, there, l]
    exact holds_of_send (l := l) holds.own holds.unused rfl step rfl dialed settled
  | none =>
    have told : w.begin r waiting = ⟨{ w.link with stage := .dialing r }, w.wires, waiting,
        ⟨r, none, none⟩ :: w.attempts⟩ := by
      simp [begin, tell, Link.step, idle, there, perform]
    rw [told]
    exact ⟨List.forall_mem_cons.mpr ⟨Attempt.rightful_of_not_conveyed nofun, holds.own⟩,
      holds.unused, w.attempts, there, rfl⟩

theorem holds_dialed (holds : w.Holds) {r : Request} (stage : w.link.stage = .dialing r) :
    (w.tell (.dialed (.ok ()))).Holds := by
  obtain ⟨rest, dialing⟩ := holds.standing stage
  let l : Link := { w.link with nextConnection := w.link.nextConnection + 1 }
  have step : w.link.step (.dialed (.ok ())) = l.send w.link.nextConnection r := by
    simp [Link.step, stage, l]
  have empty := holds.unused w.link.nextConnection le_rfl
  refine holds_of_send (holds.earlier dialing.begun) (fun connection fresh => ?_)
    dialing.begun step dialing.taken (Nat.lt_succ_self _) (empty ▸ Wire.settled_empty)
  exact holds.unused connection ((Nat.le_succ _).trans fresh)

theorem holds_wrote (holds : w.Holds) {method : Method}
    (writing : w.link.stage = .writing connection id method) :
    (w.tell (.wrote (.ok ()))).Holds := by
  obtain ⟨r, place, rest, same, asking⟩ := holds.standing writing
  have told : w.tell (.wrote (.ok ())) =
      { w with link := { w.link with stage := .reading connection id method } } := by
    simp [tell, Link.step, writing, perform]
  rw [told]
  exact ⟨holds.own, holds.unused, r, place, rest, same, asking.taken, asking.dialed,
    asking.begun, asking.awaits⟩

/-- An answer may come at any time. On a connection on which nothing is open there is none left to
come. -/
theorem holds_answer (holds : w.Holds) (asked : place < (w.wires connection).asked.length)
    (first : place ∉ (w.wires connection).answers.map Answer.place) :
    (w.onWire connection (·.answer place body)).Holds := by
  have dialed : connection < w.link.nextConnection := by
    by_contra fresh
    rw [holds.unused connection (Nat.not_lt.mp fresh)] at asked
    exact absurd asked (Nat.not_lt_zero _)
  refine ⟨fun a called => (holds.own a called).mono (rel_onWire .refl (Wire.grows_answer _ _) w _),
    unused_onWire holds.unused dialed _, ?_⟩
  show Stands w.link (w.onWire connection (·.answer place body)).wires w.attempts w.link.stage
  cases stage : w.link.stage with
  | idle =>
    have resting : Resting w.link w.wires w.attempts := holds.standing stage
    refine ⟨fun other there => ?_, fun a latest other count placed read => ?_⟩
    · obtain ⟨before, settled⟩ := resting.settled other there
      have another : other ≠ connection := by
        rintro rfl
        exact first (Wire.mem_answered_of_settled settled asked)
      rw [wires_onWire_of_ne w _ another]
      exact ⟨before, settled⟩
    · have unread : ((w.onWire connection (·.answer place body)).wires other).read =
          (w.wires other).read :=
        rel_onWire (P := fun wire later => later.read = wire.read) (f := (·.answer place body))
          (fun _ => rfl) (fun _ => rfl) ..
      rw [unread] at read
      exact resting.kept a latest other count placed read
  | dialing => exact holds.standing stage
  | writing other | reading other =>
    obtain ⟨r, count, rest, same, asking⟩ := holds.standing stage
    refine ⟨r, count, rest, same, asking.taken, asking.dialed, asking.begun, ?_⟩
    by_cases here : other = connection
    · subst here
      rw [wires_onWire]
      exact Wire.awaits_answer asking.awaits asked first
    · rw [wires_onWire_of_ne w _ here]
      exact asking.awaits

/-- The answer to the call under way is read, and its connection is kept. -/
theorem holds_read (holds : w.Holds) {method : Method} {m : Message}
    (reading : w.link.stage = .reading connection id method)
    (next : (w.wires connection).next? = some m) :
    ((w.onWire connection Wire.taken).tell (.received (.ok m))).Holds := by
  obtain ⟨r, place, rest, rfl, asking⟩ := holds.standing reading
  obtain ⟨body, rfl, answered, settled⟩ := Wire.next_of_awaits asking.awaits next
  let a : Attempt := ⟨r, some (connection, place), some (Link.replyOf r.method body)⟩
  let later := w.onWire connection Wire.taken
  have told : later.tell (.received (.ok ⟨id, body⟩)) =
      ⟨{ w.link with stage := .idle, kept := some connection }, later.wires, w.waiting,
        a :: rest⟩ := by
    simp [tell, Link.step, reading, perform, onWire, onLatest, asking.begun, a, later]
  have wire : later.wires connection = (w.wires connection).taken := wires_onWire ..
  have grows : ∀ other, (w.wires other).Grows (later.wires other) :=
    rel_onWire .refl Wire.grows_taken w connection
  have own : a.HasAnswer later.wires connection place id body := by
    refine ⟨rfl, ?_, ?_, ?_⟩ <;> rw [wire]
    · exact asking.awaits.getElem?_asked
    · exact answered
    · exact asking.awaits.read.ge.trans_lt (Nat.lt_succ_self _)
  have latest : a.Rightful later.wires := by
    rintro _ ⟨⟩ conveyed
    exact ⟨connection, place, id, body, own, Link.conveys_replyOf conveyed⟩
  rw [told]
  refine ⟨List.forall_mem_cons.mpr ⟨latest, fun b earlier =>
      (holds.earlier asking.begun b earlier).mono grows⟩,
    unused_onWire holds.unused asking.dialed _, ?_, ?_⟩
  · rintro _ ⟨⟩
    exact ⟨asking.dialed, wire ▸ settled⟩
  · rintro _ ⟨⟩ _ _ ⟨⟩ -
    rfl

theorem holds_step (holds : w.Holds) (step : Step w w') : w'.Holds := by
  cases step with
  | wait | leave => exact ⟨holds.own, holds.unused, holds.stands⟩
  | call before after idle waits => exact holds_begin holds idle _ _
  | dialed dialing => exact holds_dialed holds dialing
  | wrote writing => exact holds_wrote holds writing
  | answer connection place body asked first => exact holds_answer holds asked first
  | read reading next => exact holds_read holds reading next
  | fail fails own => exact holds_of_fails holds fails own

theorem holds_of_reached (reached : Reached w) : w.Holds := by
  induction reached with
  | refl => exact holds_start
  | tail _ step ih => exact holds_step ih step

/-! ### What is put on a connection -/

theorem asked_foldl {effects : List Link.Effect} (w : Correspondence)
    (silent : ∀ m, .write connection m ∉ effects) :
    ((effects.foldl perform w).wires connection).asked = (w.wires connection).asked := by
  induction effects generalizing w with
  | nil => rfl
  | cons effect effects ih =>
    have others : ∀ m, .write connection m ∉ effects := fun m later =>
      silent m (List.mem_cons_of_mem _ later)
    rw [List.foldl_cons, ih _ others]
    cases effect with
    | write other m =>
      have another : connection ≠ other := by
        rintro rfl
        exact silent m List.mem_cons_self
      exact congrArg Wire.asked (wires_onWire_of_ne _ (·.ask m) another)
    | dial | read | close | reply => rfl

theorem exists_write_of_asked {event : Link.Event}
    (changed : ((w.tell event).wires connection).asked ≠ (w.wires connection).asked) :
    ∃ m, .write connection m ∈ (w.link.step event).2 := by
  by_contra silent
  exact changed (asked_foldl _ (not_exists.mp silent))

theorem settled_of_write (holds : w.Holds) {event : Link.Event} {m : Message}
    (writes : .write connection m ∈ (w.link.step event).2) : (w.wires connection).Settled := by
  rcases Link.of_mem_write writes with ⟨idle, there⟩ | rfl
  · have resting : Resting w.link w.wires w.attempts := holds.standing idle
    exact (resting.settled connection there).2
  · rw [holds.unused _ le_rfl]
    exact Wire.settled_empty

theorem settled_of_step (holds : w.Holds) (step : Step w w')
    (changed : (w'.wires connection).asked ≠ (w.wires connection).asked) :
    (w.wires connection).Settled := by
  cases step with
  | wait | leave => exact absurd rfl changed
  | call | dialed | wrote | fail =>
    obtain ⟨m, writes⟩ := exists_write_of_asked changed
    exact settled_of_write holds writes
  | answer other place body asked first =>
    exact absurd (rel_onWire (P := fun wire later => later.asked = wire.asked)
      (f := (·.answer place body)) (fun _ => rfl) (fun _ => rfl) ..) changed
  | @read other id method m reading next =>
    have same : ((w.onWire other Wire.taken).wires connection).asked =
        (w.wires connection).asked :=
      rel_onWire (P := fun wire later => later.asked = wire.asked) (f := Wire.taken)
        (fun _ => rfl) (fun _ => rfl) ..
    rw [← same] at changed
    obtain ⟨m, writes⟩ := exists_write_of_asked changed
    exact settled_of_write holds writes

/-- Whatever the calls meet with, and in whatever order, a link remains in order. -/
theorem orderly_of_reached (reached : Reached w) : w.Orderly := by
  have holds := holds_of_reached reached
  refine ⟨holds.own, fun _ _ => settled_of_step holds,
    fun a latest connection place placed read => ?_⟩
  -- A call that is under way has not read its answer.
  have idle : w.link.stage = .idle := by
    by_contra busy
    obtain ⟨-, r, place?, rest, underway, unread⟩ := exists_underway holds busy
    rw [underway] at latest
    cases latest
    exact absurd (unread connection place placed) (Nat.not_le.mpr read)
  have resting : Resting w.link w.wires w.attempts := holds.standing idle
  have there := resting.kept a latest connection place placed read
  refine ⟨idle, fun r => ?_⟩
  simp only [Link.step, idle, there, Link.send]

/-- A call has been given up while its answer was awaited. -/
def givenUp : Correspondence :=
  ((({ start with waiting := [.queryNode 4] } : Correspondence).begin (.queryNode 4) []).tell
    (.wrote (.ok ()))).tell .abandon

/-- The next call has been sent, for which there was a connection to dial. -/
def sentAgain : Correspondence :=
  ((({ givenUp with waiting := [.queryNode 5] } : Correspondence).begin (.queryNode 5) []).tell
    (.dialed (.ok ()))).tell (.wrote (.ok ()))

/-- Both answers have come, the late one first, and the call has read its own. -/
def lateAnswer : Correspondence :=
  let unknown : Body := .response (.error 404 "no such node")
  let answered := (sentAgain.onWire 0 (·.answer 0 (.response (.ack .done)))).onWire 1
    (·.answer 0 unknown)
  (answered.onWire 1 Wire.taken).tell (.received (.ok ⟨2, unknown⟩))

/-- Also an error is an answer, after which the connection is used again. -/
theorem orderly_of_lateAnswer :
    Reached lateAnswer ∧ lateAnswer.Orderly ∧
      lateAnswer.attempts =
        [⟨.queryNode 5, some (1, 0), some (.error (.remote 404 "no such node"))⟩,
          ⟨.queryNode 4, some (0, 0), none⟩] ∧
      (lateAnswer.link.step (.call (.queryNode 6))).2 =
        [.write 1 ⟨3, .request (.queryNode 6)⟩] := by
  have givenUp : Reached givenUp :=
    (((ReflTransGen.refl.tail (.wait (.queryNode 4))).tail (.call [] [] rfl rfl)).tail
      (.wrote rfl)).tail (.fail (.abandon nofun) nofun)
  have sentAgain : Reached sentAgain :=
    (((givenUp.tail (.wait (.queryNode 5))).tail (.call [] [] rfl rfl)).tail (.dialed rfl)).tail
      (.wrote rfl)
  have reached : Reached lateAnswer :=
    ((sentAgain.tail (.answer 0 0 (.response (.ack .done)) (by decide) (by decide))).tail
      (.answer 1 0 (.response (.error 404 "no such node")) (by decide) (by decide))).tail
      (.read rfl rfl)
  have orderly := orderly_of_reached reached
  have kept := orderly.kept _ rfl 1 0 rfl (by decide)
  exact ⟨reached, orderly, rfl, kept.2 (.queryNode 6)⟩

end Correspondence

end ExchangeNode
