import ExchangeNode.Proofs.Session.Course

/-!
# What heartbeats say

The heartbeat record is kept apart from the identity, and five operations write to it. It follows
the identity all the same, it counts the heartbeats that were sent without a gap, and it keeps the
status that the user has set until a registration of the user is answered.

`heartbeat_is_current` puts this together for every heartbeat of every run.
-/

namespace ExchangeNode.Session

/-- The heartbeats among effects, in order. -/
def heartbeats (effects : List Effect) : List Heartbeat :=
  effects.filterMap fun
    | .call _ (.keepAlive heartbeat) => some heartbeat
    | _ => none

theorem heartbeats_append (first more : List Effect) :
    heartbeats (first ++ more) = heartbeats first ++ heartbeats more :=
  List.filterMap_append

/-- Whether a registration of the user is answered, well or not. -/
def endsRegistration (s : Session) (event : Event) : Bool :=
  match s.jobHears? event with
  | some (_, .registering _ _ _, _) => true
  | _ => false

/-- The status that stands after a step, when it was `status` before. -/
def statusAfter (s : Session) (event : Event) (status : Int32 × String) : Int32 × String :=
  if s.endsRegistration event then (0, "")
  else match event with
    | .setStatus code detail => (code, detail)
    | _ => status

/-- The status that the user has set last in a run since a registration was answered. A new
registration of the loop leaves it as it is. -/
def standing (s : Session) (status : Int32 × String) : List Event → Int32 × String
  | [] => status
  | event :: rest => (s.step event).1.standing (s.statusAfter event status) rest

/-- The heartbeat record names the identity that is held. -/
def Named (s : Session) : Prop :=
  ∀ identity, s.identity = some identity →
    s.heartbeat.node = identity.node ∧ s.heartbeat.secret = identity.secret

variable {s : Session} {event : Event} {turn : Turn}

/-! ### One step -/

/-- A step sends no heartbeat or the one that is due, and then the identity is live and stays. -/
theorem heartbeats_course (course : Course s event turn) :
    heartbeats turn.2 = [] ∨
      (heartbeats turn.2 = [s.nextHeartbeat] ∧ s.live?.isSome ∧ turn.1.identity = s.identity) := by
  cases course with
  | beats _ _ live => exact .inr ⟨rfl, live, rfl⟩
  | _ => exact .inl rfl

theorem count_course (course : Course s event turn) :
    turn.1.heartbeat.count =
      s.heartbeat.count + UInt64.ofNat (heartbeats turn.2).length := by
  cases course with
  | beats => rfl
  | _ => exact (UInt64.add_zero s.heartbeat.count).symm

theorem named_course (named : Named s) (course : Course s event turn) : Named turn.1 := by
  cases course with
  | adopts =>
    rintro identity ⟨⟩
    exact ⟨rfl, rfl⟩
  | renews =>
    rintro identity ⟨⟩
    exact ⟨rfl, rfl⟩
  | forgets => exact fun _ held => nomatch held
  -- The secret is given up in both places.
  | revokes | revokesAtLast | leaves =>
    intro identity held
    obtain ⟨kept, isHeld, rfl⟩ := Option.map_eq_some_iff.mp held
    exact ⟨(named kept isHeld).1, rfl⟩
  | _ => exact named

theorem named_step (s : Session) (event : Event) (named : Named s) : Named (s.step event).1 :=
  named_course named (step_course s event)

theorem statusAfter_of_heard {status : Int32 × String} {call : Nat} {reply : Option Reply}
    (heard : s.heard? event = some (call, reply)) (goesOn : s.endsRegistration event = false) :
    s.statusAfter event status = status := by
  cases event with
  | setStatus => cases heard
  | _ => exact if_neg (by simp only [goesOn, Bool.false_eq_true, not_false_eq_true])

theorem statusAfter_of_loopHears? {status : Int32 × String} {loop : Nat} {l : Liveness}
    {reply : Option Reply} (hears : s.loopHears? event = some (loop, l, reply)) :
    s.statusAfter event status = status := by
  obtain ⟨-, wait, -, heard⟩ := loopHears?_spec hears
  exact statusAfter_of_heard heard (by simp [endsRegistration, jobHears?_of_loopHears? hears])

theorem statusAfter_of_jobHears? {status : Int32 × String} {job : Nat} {work : Work}
    {reply : Option Reply} (hears : s.jobHears? event = some (job, work, reply))
    (other : ∀ wait directory registration, work ≠ .registering wait directory registration) :
    s.statusAfter event status = status := by
  obtain ⟨⟨call, heard⟩, ends, -⟩ := Option.bind_eq_some_iff.mp hears
  refine statusAfter_of_heard ends ?_
  simp only [endsRegistration, hears]
  cases work with
  | registering wait directory registration => exact absurd rfl (other wait directory registration)
  | _ => rfl

/-- The status of the record is the one that stands. -/
theorem status_course (course : Course s event turn) :
    (turn.1.heartbeat.status, turn.1.heartbeat.detail) =
      s.statusAfter event (s.heartbeat.status, s.heartbeat.detail) := by
  cases course with
  | adopts hears | forgets hears =>
    have ends : s.endsRegistration event := by simp only [endsRegistration, hears]
    exact (if_pos ends).symm
  -- An event that sets the status never finds nothing to do.
  | misses may _ noJob =>
    have goesOn : s.endsRegistration event = false := by simp only [endsRegistration, noJob]
    cases event with
    | setStatus => cases may
    | _ => exact (if_neg (by simp [goesOn])).symm
  | outside world isOutside =>
    cases event with
    | elapse | setClock | setRandom | setLoad => rfl
    | _ => cases isOutside
  | clears applies | applies applies =>
    cases event with
    | register | dialed => rfl
    | _ => cases applies
  -- What another job or a loop hears sets no status and ends no registration.
  | revokes hears | revokesAtLast hears | learns hears =>
    exact (statusAfter_of_jobHears? hears (by simp)).symm
  | pauses hears | publishes hears | reconnects hears | renews hears | staysAsItIs hears
  | moves hears | movesAtOnce hears | defers hears | leaves hears =>
    exact (statusAfter_of_loopHears? hears).symm
  | _ => rfl

/-! ### A whole run -/

theorem named_fresh (options : KeepAliveOptions) (world : Surroundings) :
    Named (fresh options world) := nofun

theorem named_run (options : KeepAliveOptions) (world : Surroundings) (events : List Event) :
    Named ((fresh options world).run events).1 :=
  run_invariant Named named_step (named_fresh options world) events

theorem count_run (s : Session) (events : List Event) :
    (s.run events).1.heartbeat.count =
      s.heartbeat.count + UInt64.ofNat (heartbeats (s.run events).2).length := by
  induction events generalizing s with
  | nil => exact (UInt64.add_zero _).symm
  | cons event rest ih =>
    rw [run_cons, ih, count_course (step_course s event), heartbeats_append, List.length_append,
      UInt64.ofNat_add, UInt64.add_assoc]

theorem status_run (s : Session) (events : List Event) :
    ((s.run events).1.heartbeat.status, (s.run events).1.heartbeat.detail) =
      s.standing (s.heartbeat.status, s.heartbeat.detail) events := by
  induction events generalizing s with
  | nil => rfl
  | cons event rest ih => rw [run_cons, ih, status_course (step_course s event), standing]

/-- Each heartbeat of a run is sent by one step, after as many heartbeats as stand before it. -/
theorem run_splits (s : Session) (events : List Event) (k : Nat) (heartbeat : Heartbeat)
    (sent : (heartbeats (s.run events).2)[k]? = some heartbeat) :
    ∃ before event after, events = before ++ event :: after ∧
      (heartbeats (s.run before).2).length = k ∧
      heartbeats ((s.run before).1.step event).2 = [heartbeat] := by
  -- By induction on the run: the heartbeat is the first of the first step, or comes after it.
  induction events generalizing s k with
  | nil => simp [run, heartbeats] at sent
  | cons event rest ih =>
    rw [run_cons, heartbeats_append] at sent
    -- An earlier run is put behind `event`, whether that sends a heartbeat or not.
    have later : ∀ j n, (heartbeats (s.step event).2).length = n → k = n + j →
        (heartbeats ((s.step event).1.run rest).2)[j]? = some heartbeat →
        ∃ before next after, event :: rest = before ++ next :: after ∧
          (heartbeats (s.run before).2).length = k ∧
          heartbeats ((s.run before).1.step next).2 = [heartbeat] := by
      intro j n count reached sentLater
      obtain ⟨before, next, after, rfl, length, sends⟩ := ih (s.step event).1 j sentLater
      refine ⟨event :: before, next, after, rfl, ?_, sends⟩
      rw [run_cons, heartbeats_append, List.length_append, length, count, reached]
    obtain none | ⟨one, -, -⟩ := heartbeats_course (step_course s event)
    · rw [none, List.nil_append] at sent
      exact later k 0 (by rw [none]; rfl) (by omega) sent
    · cases k with
      | zero =>
        rw [one] at sent
        obtain rfl : s.nextHeartbeat = heartbeat := by simpa using sent
        exact ⟨[], event, rest, rfl, rfl, one⟩
      | succ j =>
        rw [one] at sent
        exact later j 1 (by rw [one]; rfl) (by omega) (by simpa using sent)

/-- The heartbeat that is due carries the count, the identity and the status of the session. -/
theorem nextHeartbeat_of_named (named : Named s) (live : s.live?.isSome) :
    s.nextHeartbeat.secret ≠ 0 ∧
      ∃ identity, s.identity = some identity ∧ s.nextHeartbeat.node = identity.node ∧
        s.nextHeartbeat.secret = identity.secret := by
  obtain ⟨identity, isLive⟩ := Option.isSome_iff_exists.mp live
  obtain ⟨held, secret⟩ := Option.filter_eq_some_iff.mp isLive
  have same := named identity held
  refine ⟨?_, identity, held, same⟩
  have kept : s.nextHeartbeat.secret = identity.secret := same.2
  rw [kept]
  simpa [Identity.isLive] using secret

/-- The heartbeat that is sent after `k` others carries the count `k + 1`, the number and the secret
of the identity that is held at that moment, and the status that the user has set last since a
registration was answered. -/
theorem heartbeat_is_current (options : KeepAliveOptions) (world : Surroundings)
    (events : List Event) (k : Nat) (heartbeat : Heartbeat)
    (sent : (heartbeats ((fresh options world).run events).2)[k]? = some heartbeat) :
    ∃ before event after, events = before ++ event :: after ∧
      (heartbeats ((fresh options world).run before).2).length = k ∧
      heartbeats (((fresh options world).run before).1.step event).2 = [heartbeat] ∧
      heartbeat.count = UInt64.ofNat (k + 1) ∧
      heartbeat.secret ≠ 0 ∧
      (∃ identity, ((fresh options world).run before).1.identity = some identity ∧
        (((fresh options world).run before).1.step event).1.identity = some identity ∧
        heartbeat.node = identity.node ∧ heartbeat.secret = identity.secret) ∧
      (heartbeat.status, heartbeat.detail) = (fresh options world).standing (0, "") before := by
  obtain ⟨before, event, after, split, length, sends⟩ := run_splits _ events k heartbeat sent
  refine ⟨before, event, after, split, length, sends, ?_⟩
  obtain none | ⟨due, live, kept⟩ := heartbeats_course (step_course _ event)
  · rw [none] at sends
    cases sends
  rw [due] at sends
  obtain rfl := List.singleton_inj.mp sends
  have count := count_run (fresh options world) before
  have status := status_run (fresh options world) before
  obtain ⟨secret, identity, held, node, same⟩ :=
    nextHeartbeat_of_named (named_run options world before) live
  refine ⟨?_, secret, ⟨identity, held, kept.trans held, node, same⟩, status⟩
  calc ((fresh options world).run before).1.heartbeat.count + 1
      = (0 : UInt64) + UInt64.ofNat k + 1 := by rw [count, length]; rfl
    _ = UInt64.ofNat (k + 1) := by rw [UInt64.zero_add, UInt64.ofNat_add]; rfl

/-- The directory asks for a new registration and grants number eight; the next heartbeat leaves. -/
def renewal : List Event :=
  firstHeartbeat ++
    [.setStatus 3 "busy", .answer 1 (command .reconnect), .answer 2 (grant 8 1008), .elapse 5000,
      .wake 0]

theorem second_heartbeat_after_renewal_is_current :
    ∃ before event after, renewal = before ++ event :: after ∧
      (heartbeats ((fresh .standard stillWorld).run before).2).length = 1 ∧
      heartbeats (((fresh .standard stillWorld).run before).1.step event).2 =
        [⟨8, 1008, 2, 3, "busy", none⟩] ∧
      (2 : UInt64) = UInt64.ofNat (1 + 1) ∧
      (1008 : UInt64) ≠ 0 ∧
      (∃ identity, ((fresh .standard stillWorld).run before).1.identity = some identity ∧
        (((fresh .standard stillWorld).run before).1.step event).1.identity = some identity ∧
        8 = identity.node ∧ 1008 = identity.secret) ∧
      (3, "busy") = (fresh .standard stillWorld).standing (0, "") before :=
  heartbeat_is_current .standard stillWorld renewal 1 ⟨8, 1008, 2, 3, "busy", none⟩ (by decide)

end ExchangeNode.Session
