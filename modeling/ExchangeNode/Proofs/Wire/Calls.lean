import Mathlib.Logic.Relation
import ExchangeNode.Proofs.Wire.Conversation

/-!
# Calls over a connection come to what direct calls come to

In each of the places where a conversation may stand, the host has handed on some of the calls in
their order and the client has been given the answers to some of them. Within a call a step is
always left, so only a conversation in which every call has returned goes no further. And it does
get there: each step leaves fewer calls, or turns of the client, or bytes.

What a failure in one call does to the calls behind it can be read off the direct calls: nothing,
unless the service itself makes it matter.
-/

namespace ExchangeNode

open Relation (ReflTransGen)

namespace Conversation

variable {σ : Type} {h : Hosted} {service : Service σ} {s : σ} {calls past rest : List Request}
  {r : Request} {c c' : Conversation}

/-! ### What the calls come to -/

theorem zipWith_replies (unary : ∀ r ∈ past, r.isSubscription = false) (rest : List Request) :
    (past ++ rest).zipWith CallResult.ofReply ((service.run s past).1.map CallResult.reply) =
      (service.run s past).1.map CallResult.reported := by
  induction past generalizing s with
  | nil => exact List.zipWith_nil_right
  | cons r past ih =>
    obtain ⟨unary, others⟩ := List.forall_mem_cons.mp unary
    have first : CallResult.ofReply r (CallResult.reply ⟨r, (service.answer s r).1⟩) =
        CallResult.reported ⟨r, (service.answer s r).1⟩ :=
      congrArg (CallResult.mk r) (Method.expect_replyOf unary _)
    simp only [List.cons_append, Service.run, List.map_cons, List.zipWith_cons_cons, first,
      ih others]

section

variable (h service s)

/-- The host has done what a service does that is called directly, as far as the conversation has
come, and so have the calls that have returned. A conversation that cannot go on is over. -/
structure Faithful (calls : List Request) (c : Conversation) : Prop where
  served : (c.host h service s).served <+: calls
  state : (c.host h service s).state = (service.run s (c.host h service s).served).2
  results : c.results calls <+: (service.run s calls).1.map CallResult.reported
  served_of_over : (∀ c', ¬ Step h service s c c') → (c.host h service s).served = calls
  results_of_over : (∀ c', ¬ Step h service s c c') →
    c.results calls = (service.run s calls).1.map CallResult.reported

end

theorem results_of_replies (unary : ∀ r ∈ past, r.isSubscription = false)
    (replies : Link.replies c.asked = (service.run s past).1.map CallResult.reply)
    (rest : List Request) :
    c.results (past ++ rest) = (service.run s past).1.map CallResult.reported := by
  rw [results, replies]
  exact zipWith_replies unary rest

theorem results_prefix (past rest : List Request) :
    (service.run s past).1.map CallResult.reported <+:
      (service.run s (past ++ rest)).1.map CallResult.reported := by
  rw [Service.run_append, List.map_append]
  exact List.prefix_append ..

/-- Within a call there is always something left to do. -/
theorem exists_step (place : Within h service s past r c)
    (carries : Carries h service s (past ++ [r])) : ∃ c', Step h service s c c' := by
  rcases place.stage with writing | reading
  · exact ⟨_, .wrote writing⟩
  rcases read_unread place carries with ⟨lacking | lacking, -⟩ | ⟨-, -, whole⟩
  · exact ⟨_, .carry lacking le_rfl⟩
  · exact ⟨_, .bring lacking le_rfl⟩
  · exact ⟨_, .read reading whole nofun⟩

theorem faithful_of_stands (carries : Carries h service s calls)
    (stands : Stands h service s calls c) : Faithful h service s calls c := by
  cases stands with
  | @between past split place =>
    subst split
    have host := host_of_between place carries.before
    have results := results_of_replies carries.before.unary place.replies c.ahead
    have exhausted (stuck : ∀ c', ¬ Step h service s c c') : c.ahead = [] := by
      cases ahead : c.ahead with
      | nil => rfl
      | cons r rest => exact absurd (.call (by rw [place.link]) ahead) (stuck _)
    refine ⟨?_, ?_, ?_, fun stuck => ?_, fun stuck => ?_⟩
    · rw [host]
      exact List.prefix_append ..
    · rw [host]
      rfl
    · rw [results]
      exact results_prefix ..
    · rw [host, exhausted stuck, List.append_nil]
      rfl
    · rw [results, exhausted stuck, List.append_nil]
  | @within past r split place =>
    rw [List.append_cons] at split
    subst split
    -- Such a conversation is not over.
    have goesOn := exists_step place carries.before
    have unary := carries.before.before.unary
    have results := results_of_replies unary place.replies (r :: c.ahead)
    rw [List.append_cons] at results
    have host := host_of_begun carries.before place.upstream place.begun place.arrived
    refine ⟨?_, ?_, ?_, fun stuck => absurd goesOn (not_exists.mpr stuck),
      fun stuck => absurd goesOn (not_exists.mpr stuck)⟩
    · rcases host with ⟨-, host⟩ | ⟨-, host⟩ <;> rw [host]
      · rw [List.append_assoc]
        exact List.prefix_append ..
      · exact List.prefix_append ..
    · rcases host with ⟨-, host⟩ | ⟨-, host⟩ <;> rw [host] <;> rfl
    · rw [results, List.append_assoc]
      exact results_prefix ..

/-! ### Every conversation ends -/

/-- How much of the call under way is left to the client. -/
def left (c : Conversation) : Nat :=
  match c.link.stage with
  | .writing .. => 2
  | .reading .. => 1
  | _ => 0

/-- What is left of a conversation: calls, then turns of the client, then bytes. -/
def rank (h : Hosted) (service : Service σ) (s : σ) (c : Conversation) : Nat × Nat × Nat × Nat :=
  (c.ahead.length, c.left, c.upstream.length - c.arrived,
    (c.downstream h service s).length - c.returned)

theorem left_of_wrote {connection : Nat} {id : UInt64} {method : Method}
    (writing : c.link.stage = .writing connection id method) :
    (c.tell (.wrote (.ok ()))).left < c.left := by
  simp [left, tell, Link.step, writing]

theorem left_of_received {connection : Nat} {id : UInt64} {method : Method}
    (reading : c.link.stage = .reading connection id method) (result : Except WireError Message) :
    (c.tell (.received result)).left < c.left := by
  cases result with
  | error e => simp [left, tell, Link.step, Link.fail, reading]
  | ok m =>
    by_cases same : m.id = id <;> simp [left, tell, Link.step, Link.fail, reading, same]

theorem step_wellFounded : WellFounded fun later earlier => Step h service s earlier later := by
  -- Every step lowers one part of the rank and leaves those before it as they are.
  refine Subrelation.wf (fun {later earlier} step => ?_)
    (invImage (rank h service s) inferInstance).wf
  show Prod.Lex _ _ (rank h service s later) (rank h service s earlier)
  cases step with
  | call idle next =>
    refine .left _ _ ?_
    rw [next]
    exact Nat.lt_succ_self _
  | wrote writing => exact .right _ (.left _ _ (left_of_wrote writing))
  | carry more there =>
    exact .right _ (.right _ (.left _ _ (Nat.sub_lt_sub_left (more.trans_le there) more)))
  | bring more there =>
    exact .right _ (.right _ (.right _ (Nat.sub_lt_sub_left (more.trans_le there) more)))
  | read reading taken enough => exact .right _ (.left _ _ (left_of_received reading _))

/-- Whatever the pace at which bytes travel, a conversation comes to an end, and up to there and at
its end the service has been called, and its answers have come back, as if it had been called
directly. -/
theorem faithful_of_carries (carries : Carries h service s calls) :
    (WellFounded fun later earlier => Step h service s earlier later) ∧
      ∀ c, ReflTransGen (Step h service s) (start calls) c → Faithful h service s calls c :=
  ⟨step_wellFounded, fun _ reached =>
    faithful_of_stands carries (stands_of_reached carries reached)⟩

/-- A directory that takes heartbeats and knows no node, and counts what it is asked. -/
def forgetful : Service Nat where
  answer asked r := match r with
    | .keepAlive _ => (.ok ⟨true, .nothing, ""⟩, asked + 1)
    | _ => (.error .connectionClosed, asked + 1)

/-- Two calls, the first of which fails. -/
theorem faithful_of_query_and_heartbeat :
    let calls : List Request :=
      [.queryNode 4, .keepAlive ⟨7, 1007, 1, 0, "", some ⟨0.1, 99.75, 12⟩⟩]
    Carries ⟨true, false⟩ forgetful 0 calls ∧
      (WellFounded fun later earlier => Step ⟨true, false⟩ forgetful 0 earlier later) ∧
      ∀ c, ReflTransGen (Step ⟨true, false⟩ forgetful 0) (start calls) c →
        Faithful ⟨true, false⟩ forgetful 0 calls c := by
  intro calls
  have carries : Carries ⟨true, false⟩ forgetful 0 calls :=
    ⟨by decide, by decide, by decide +kernel, by decide +kernel, by decide +kernel⟩
  exact ⟨carries, faithful_of_carries carries⟩

/-- A load that is not found again in its text reaches the service as another one. -/
theorem not_faithful_of_inexact_load :
    let calls : List Request :=
      [.keepAlive ⟨7, 1007, 1, 0, "", some ⟨12.033999999999999, 50.0, 0⟩⟩]
    (∀ r ∈ calls, Hosted.hosts ⟨true, false⟩ r.method) ∧
      (∀ r ∈ calls, r.isSubscription = false) ∧ (∀ m ∈ askings callNumber calls, m.Fits) ∧
      (∀ m ∈ answerings callNumber (forgetful.run 0 calls).1, m.Fits) ∧
      ∃ c, ReflTransGen (Step ⟨true, false⟩ forgetful 0) (start calls) c ∧
        ¬ (c.host ⟨true, false⟩ forgetful 0).served <+: calls := by
  intro calls
  let made : Request := .keepAlive ⟨7, 1007, 1, 0, "", some ⟨12.033999999999999, 50.0, 0⟩⟩
  let received : Request := .keepAlive ⟨7, 1007, 1, 0, "", some ⟨12.034, 50.0, 0⟩⟩
  have fits : (asking [] made).Fits := by decide +kernel
  refine ⟨by decide, by decide, by decide +kernel, by decide +kernel, ?_⟩
  let begun : Conversation := { start calls with ahead := [] }.tell (.call made)
  have upstream : begun.upstream = (asking [] made).write := List.append_nil _
  let arrived : Conversation := { begun with arrived := (asking [] made).write.length }
  have reached : ReflTransGen (Step ⟨true, false⟩ forgetful 0) (start calls) arrived :=
    .tail (.single (.call rfl rfl))
      (.carry (List.length_pos_of_ne_nil (Message.write_ne_nil _)) (by rw [upstream]))
  refine ⟨arrived, reached, fun same => ?_⟩
  have read : Message.read (arrived.upstream.take arrived.arrived) =
      (.ok ⟨callNumber 0, .request received⟩, []) := by
    have found : Message.ofBytes? (asking [] made).bytes =
        some ⟨callNumber 0, .request received⟩ := by
      rw [Message.bytes_eq]
      decide +kernel
    have taken := Message.read_write_of_ofBytes? fits found []
    rw [List.append_nil] at taken
    rw [show arrived.upstream = (asking [] made).write from upstream, List.take_length]
    exact taken
  rw [host, Hosted.connection_of_call read rfl rfl] at same
  have equal : received = made := (List.cons_prefix_cons.mp same).1
  exact absurd equal (by decide +kernel)

end Conversation

end ExchangeNode
