import ExchangeNode.Proofs.Session.Course

/-!
# Giving an identity up

A job that unregisters and the loop both write down what has become of the identity after they have
waited for the directory, and the last of them is right: the session stays unregistered as long as
no loop registers again after the identity was given up. A loop that was asked to register again in
time does so, also while the job that unregisters waits for it.

`dropped_iff_givenUp` says when an identity is gone after such a job has returned, and
`unregistered_node_is_active_again` that it need not be.
-/

namespace ExchangeNode

/-- Whether a job is part of a registration. -/
def Work.registers : Work → Bool
  | .dialing _ _ | .clearing _ _ _ | .registering _ _ _ => true
  | _ => false

namespace Session

/-- Whether a registration begins with an event. -/
def Event.registers : Event → Bool
  | .dial _ _ _ | .register _ _ _ => true
  | _ => false

/-- No registration is in progress. -/
def Unasked (s : Session) : Prop :=
  ∀ job work, s.jobs.get? job = some work → work.registers = false

/-- The identity is gone: the session counts as unregistered and has no number. -/
structure Dropped (s : Session) : Prop where
  phase : s.phase = .unregistered
  node : s.node? = none
  secret : ∀ identity, s.identity = some identity → identity.secret = 0

/-- A job or a loop gives the identity up, after the directory has been told or has not answered. -/
inductive Revokes (s : Session) (event : Event) : Prop where
  | job {job wait reply} (hears : s.jobHears? event = some (job, .revoking wait, reply))
  | loop {loop l wait reply order} (hears : s.loopHears? event = some (loop, l, reply))
      (moving : l.stage = .moving wait order)

/-- A loop asks for a new registration, or goes on after the answer. -/
inductive Renews (s : Session) (event : Event) : Prop where
  | asks {call registration} (asked : .call call (.register registration) ∈ (s.step event).2)
  | hears {loop l wait reply} (hears : s.loopHears? event = some (loop, l, reply))
      (reconnecting : l.stage = .reconnecting wait)

/-- No loop registers again during a run. -/
def Undisturbed (s : Session) (events : List Event) : Prop :=
  ¬ ∃ before event after, events = before ++ event :: after ∧ Renews (s.run before).1 event

/-- A step of a run gives the identity up, and no loop registers again from there on. -/
def GivenUp (s : Session) (events : List Event) : Prop :=
  ∃ before event after, events = before ++ event :: after ∧ Revokes (s.run before).1 event ∧
    Undisturbed ((s.run before).1.step event).1 after

variable {s : Session} {event : Event} {turn : Turn}

/-! ### One step -/

theorem live?_revoke (s : Session) : s.revoke.live? = none := by
  simp only [live?, revoke]
  cases s.identity with
  | none => rfl
  | some identity => rfl

theorem dropped_of_revoke {t : Session} (phase : t.phase = .unregistered)
    (identity : t.identity = s.revoke.identity) : Dropped t where
  phase := phase
  node := by rw [node?, live?, identity, ← live?, live?_revoke, Option.map_none]
  secret := by
    intro held isHeld
    rw [identity] at isHeld
    obtain ⟨before, -, rfl⟩ := Option.map_eq_some_iff.mp isHeld
    rfl

theorem revoke_of_revokes (revokes : Revokes s event) :
    (s.step event).1.phase = .unregistered ∧
      (s.step event).1.identity = s.identity.map Identity.revoked := by
  cases revokes with
  | @job job wait reply hears =>
    rw [step_of_jobHears? hears]
    obtain ⟨loop, -, turn⟩ | ⟨-, turn⟩ := s.revoke.shutdown_cases job
    · simp only [jobAnswered, revoked, turn]
      exact ⟨rfl, rfl⟩
    · simp only [jobAnswered, revoked, turn]
      exact ⟨rfl, rfl⟩
  | loop hears moving =>
    rw [step_of_loopHears? hears]
    simp only [loopAnswered, moving]
    exact ⟨rfl, rfl⟩

theorem dropped_of_revokes (revokes : Revokes s event) : Dropped (s.step event).1 :=
  dropped_of_revoke (revoke_of_revokes revokes).1 (revoke_of_revokes revokes).2

/-- A session in which a loop has just registered again, or tries to, is not unregistered. -/
theorem not_dropped_of_renews (renews : Renews s event) : ¬ Dropped (s.step event).1 := by
  intro dropped
  have phase := dropped.phase
  cases renews with
  -- Whoever asks for a registration has the session say so.
  | asks asked =>
    have course := step_course s event
    generalize s.step event = turn at course asked phase
    cases course with
    | applies | cleared | reconnects => cases phase
    | _ => simp [finish, jobCalls, loopCalls] at asked
  -- Whatever the answer is, the loop makes the session active again.
  | hears hears reconnecting =>
    rw [step_of_loopHears? hears] at phase
    simp only [loopAnswered, reconnecting, reconnected] at phase
    split at phase
    · cases phase
    · cases phase

theorem not_applicant {job : Nat} {directory : String} {registration : Registration}
    (unasked : Unasked s) (calm : event.registers = false) :
    s.applicant? event ≠ some (job, directory, registration) := by
  intro applies
  obtain rfl | ⟨-, dialing⟩ := applicant?_spec applies
  · cases calm
  -- A registration that was begun earlier would be in progress.
  · cases unasked _ _ dialing

/-- Nothing else touches the phase and the identity while no registration is in progress. -/
theorem kept_of_neither (unasked : Unasked s) (calm : event.registers = false)
    (noRevoke : ¬ Revokes s event) (noRenew : ¬ Renews s event) :
    (s.step event).1.phase = s.phase ∧ (s.step event).1.identity = s.identity := by
  have course := step_course s event
  have asks : ∀ call registration, .call call (.register registration) ∉ (s.step event).2 :=
    fun _ _ asked => noRenew (.asks asked)
  generalize s.step event = turn at course asks
  cases course with
  | applies applies => exact absurd applies (not_applicant unasked calm)
  | cleared clearing => cases unasked _ _ clearing
  | adopts hears | forgets hears => cases unasked _ _ (jobHears?_spec hears)
  | revokes hears | revokesAtLast hears => exact absurd (.job hears) noRevoke
  | reconnects => exact absurd List.mem_cons_self (asks _ _)
  | renews hears reconnecting | staysAsItIs hears reconnecting =>
    exact absurd (.hears hears reconnecting) noRenew
  | leaves hears moving => exact absurd (.loop hears moving) noRevoke
  | _ => exact ⟨rfl, rfl⟩

theorem dropped_congr {t : Session} (phase : t.phase = s.phase)
    (identity : t.identity = s.identity) :
    Dropped t ↔ Dropped s := by
  constructor
  · rintro ⟨unregistered, node, secret⟩
    refine ⟨phase ▸ unregistered, ?_, identity ▸ secret⟩
    rwa [node?, live?, identity] at node
  · rintro ⟨unregistered, node, secret⟩
    refine ⟨phase.trans unregistered, ?_, identity ▸ secret⟩
    rwa [node?, live?, identity]

/-- A step drops the identity, or finds it dropped and lets it be. -/
theorem dropped_step_iff (unasked : Unasked s) (calm : event.registers = false) :
    Dropped (s.step event).1 ↔ Revokes s event ∨ (Dropped s ∧ ¬ Renews s event) := by
  by_cases revokes : Revokes s event
  · exact iff_of_true (dropped_of_revokes revokes) (.inl revokes)
  by_cases renews : Renews s event
  · exact iff_of_false (not_dropped_of_renews renews) (by simp [revokes, renews])
  obtain ⟨phase, identity⟩ := kept_of_neither unasked calm revokes renews
  rw [dropped_congr phase identity]
  simp [revokes, renews]

theorem unasked_step (unasked : Unasked s) (calm : event.registers = false) :
    Unasked (s.step event).1 := by
  have course := step_course s event
  generalize s.step event = turn at course
  -- A job that is set is no part of a registration, and a job that ends is none of those left.
  have set : ∀ {job : Nat} {work : Work}, work.registers = false →
      ∀ other left, (s.jobs.set job work).get? other = some left → left.registers = false := by
    intro job work free other left found
    rcases Table.of_get?_set found with ⟨-, rfl⟩ | ⟨-, before⟩
    · exact free
    · exact unasked other left before
  have erased : ∀ (job : Nat), ∀ other left,
      (s.jobs.erase job).get? other = some left → left.registers = false :=
    fun _ other left found => unasked other left (Table.of_get?_erase found).2
  cases course with
  | dials => cases calm
  | clears applies | applies applies => exact absurd applies (not_applicant unasked calm)
  | cleared clearing => cases unasked _ _ clearing
  | adopts hears | forgets hears => cases unasked _ _ (jobHears?_spec hears)
  | unregisters | revokes | stops | asks => exact set rfl
  | undialed | unregistersInVain | revokesAtLast | stopsAtOnce | stopped | asksInVain | learns
  | abandons | issues => exact erased _
  | _ => exact unasked

/-- A job that does not wait for a loop yet goes on to do so, or ends well, only by giving the
identity up. -/
theorem not_done_of_not_revokes {job : Nat}
    (noStop : ∀ loop, s.jobs.get? job ≠ some (.stopping loop))
    (own : event ≠ .shutdown job) (noRevoke : ¬ Revokes s event) :
    .finish job .done ∉ (s.step event).2 ∧
      ∀ loop, (s.step event).1.jobs.get? job ≠ some (.stopping loop) := by
  have course := step_course s event
  generalize s.step event = turn at course
  have erased : ∀ other loop, (s.jobs.erase other).get? job ≠ some (.stopping loop) :=
    fun _ loop found => noStop loop (Table.of_get?_erase found).2
  have set : ∀ {other : Nat} {work : Work}, (∀ loop, work ≠ .stopping loop) →
      ∀ loop, (s.jobs.set other work).get? job ≠ some (.stopping loop) := by
    intro other work goesOn loop found
    rcases Table.of_get?_set found with ⟨-, same⟩ | ⟨-, before⟩
    · exact goesOn loop same.symm
    · exact noStop loop before
  cases course with
  | revokes hears | revokesAtLast hears => exact absurd (.job hears) noRevoke
  | @stops other loop busy =>
    have different : job ≠ other := fun same => own (same ▸ rfl)
    refine ⟨List.not_mem_nil, fun loop found => noStop loop ?_⟩
    rwa [Table.get?_set, if_neg different] at found
  | @stopsAtOnce other idle =>
    have different : job ≠ other := fun same => own (same ▸ rfl)
    exact ⟨by simp [finish, different], erased other⟩
  -- Only a job that has waited for a loop ends in this way.
  | @stopped other loop stopping =>
    have different : job ≠ other := fun same => noStop loop (same ▸ stopping)
    exact ⟨by simp [finish, different], erased other⟩
  | issues ids kind notDone => exact ⟨by simp [finish, notDone.symm], erased _⟩
  | dials | clears | applies | cleared | unregisters | asks =>
    exact ⟨by simp [jobCalls, apply], set (by simp)⟩
  | undialed | forgets | adopts | unregistersInVain | asksInVain | learns =>
    exact ⟨by simp [finish], erased _⟩
  | abandons => exact ⟨List.not_mem_nil, erased _⟩
  | _ => exact ⟨by simp [loopCalls], noStop⟩

/-! ### A whole run -/

theorem undisturbed_cons {rest : List Event} :
    Undisturbed s (event :: rest) ↔ ¬ Renews s event ∧ Undisturbed (s.step event).1 rest := by
  rw [Undisturbed, exists_split_cons, not_or]
  rfl

theorem givenUp_cons {rest : List Event} :
    GivenUp s (event :: rest) ↔
      (Revokes s event ∧ Undisturbed (s.step event).1 rest) ∨ GivenUp (s.step event).1 rest := by
  rw [GivenUp, exists_split_cons]
  rfl

/-- After a run the identity is gone if the run gave it up for good, or found it gone. -/
theorem dropped_run_iff (unasked : Unasked s) (events : List Event)
    (calm : ∀ event ∈ events, event.registers = false) :
    Dropped (s.run events).1 ↔ GivenUp s events ∨ (Dropped s ∧ Undisturbed s events) := by
  induction events generalizing s with
  | nil => simp [run, GivenUp, Undisturbed]
  | cons event rest ih =>
    -- What the rest of the run finds is what the first step has left.
    have first := calm event List.mem_cons_self
    have later := ih (unasked_step unasked first) fun e member => calm e (.tail _ member)
    rw [run_cons, later, dropped_step_iff unasked first, givenUp_cons, undisturbed_cons]
    rw [or_and_right, and_assoc, or_left_comm, or_assoc]

/-- A job that was never told to stop only ends well if the identity was given up. -/
theorem revokes_of_done {job : Nat} (events : List Event)
    (noStop : ∀ loop, s.jobs.get? job ≠ some (.stopping loop)) (own : .shutdown job ∉ events)
    (returned : .finish job .done ∈ (s.run events).2) :
    ∃ before event after, events = before ++ event :: after ∧ Revokes (s.run before).1 event := by
  induction events generalizing s with
  | nil => cases returned
  | cons event rest ih =>
    rw [exists_split_cons]
    by_cases revokes : Revokes s event
    · exact .inl revokes
    obtain ⟨notYet, goesOn⟩ := not_done_of_not_revokes noStop
      (fun same => own (same ▸ List.mem_cons_self)) revokes
    have later : .finish job .done ∈ ((s.step event).1.run rest).2 := by
      rw [run_cons, List.mem_append] at returned
      exact returned.resolve_left notYet
    exact .inr (ih goesOn (fun member => own (.tail _ member)) later)

theorem givenUp_of_undisturbed {events : List Event} (undisturbed : Undisturbed s events)
    (revokes : ∃ before event after, events = before ++ event :: after ∧
      Revokes (s.run before).1 event) : GivenUp s events := by
  induction events generalizing s with
  | nil => simp at revokes
  | cons event rest ih =>
    rw [givenUp_cons]
    rw [undisturbed_cons] at undisturbed
    rcases exists_split_cons.mp revokes with now | later
    · exact .inl ⟨now, undisturbed.2⟩
    · exact .inr (ih undisturbed.2 later)

theorem unregister_spec (s : Session) (job : Nat) :
    .finish job .done ∉ (s.step (.unregister job)).2 ∧
      ∀ loop, (s.step (.unregister job)).1.jobs.get? job ≠ some (.stopping loop) := by
  simp only [step, unregister]
  split
  · split
    · simp [jobCalls]
    · simp [finish]
  · simp [finish]

/-- Once a job that unregisters has returned, and until a registration begins, the identity is gone
just when no loop has registered again since it was given up last. The number of the job is its own:
nothing else that ends in the same way goes by it. -/
theorem dropped_iff_givenUp (unasked : Unasked s) (job : Nat) (events : List Event)
    (calm : ∀ event ∈ events, event.registers = false) (own : .shutdown job ∉ events)
    (returned : .finish job .done ∈ (s.run (.unregister job :: events)).2) :
    Dropped (s.run (.unregister job :: events)).1 ↔
      GivenUp (s.step (.unregister job)).1 events := by
  have begun : Unasked (s.step (.unregister job)).1 := unasked_step unasked rfl
  obtain ⟨notYet, noStop⟩ := unregister_spec s job
  have later : .finish job .done ∈ ((s.step (.unregister job)).1.run events).2 := by
    rw [run_cons, List.mem_append] at returned
    exact returned.resolve_left notYet
  rw [run_cons, dropped_run_iff begun events calm]
  constructor
  · rintro (givenUp | ⟨-, undisturbed⟩)
    · exact givenUp
    · exact givenUp_of_undisturbed undisturbed (revokes_of_done events noStop own later)
  · exact .inl

/-! ### A loop that is late -/

/-- A session whose first heartbeat is under way. -/
def beating : Session := ((fresh .standard stillWorld).run firstHeartbeat).1

theorem unasked_beating : Unasked beating := by
  have idle : beating.jobs = .empty := by decide
  intro job work found
  rw [idle] at found
  cases found

/-- The loop has nothing to do when the identity is given up. -/
def quietEnd : List Event :=
  [.answer 1 (command .nothing), .answer 2 (.ok (.ack .done)), .heed 0, .proceed 1]

theorem quiet_end_dropped_iff_givenUp :
    .finish 1 .done ∈ (beating.run (.unregister 1 :: quietEnd)).2 ∧
      (Dropped (beating.run (.unregister 1 :: quietEnd)).1 ↔
        GivenUp (beating.step (.unregister 1)).1 quietEnd) :=
  ⟨by decide, dropped_iff_givenUp unasked_beating 1 quietEnd (by decide) (by simp [quietEnd])
    (by decide)⟩

/-- The loop is asked to register again, and is answered after the identity was given up. -/
def lateRenewal : List Event :=
  [.answer 1 (command .reconnect), .answer 2 (.ok (.ack .done)), .answer 3 (grant 8 1008), .heed 0,
    .proceed 1]

/-- The job that unregisters waits for the loop, and returns with the node active under another
number. -/
theorem unregistered_node_is_active_again :
    Unasked beating ∧ (∀ event ∈ lateRenewal, event.registers = false) ∧
      .shutdown 1 ∉ lateRenewal ∧
      .finish 1 .done ∈ (beating.run (.unregister 1 :: lateRenewal)).2 ∧
      (beating.run (.unregister 1 :: lateRenewal)).1.phase = .active ∧
      (beating.run (.unregister 1 :: lateRenewal)).1.node? = some 8 ∧
      ¬ Dropped (beating.run (.unregister 1 :: lateRenewal)).1 := by
  have phase : (beating.run (.unregister 1 :: lateRenewal)).1.phase = .active := by decide
  refine ⟨unasked_beating, by decide, by simp [lateRenewal], by decide, phase, by decide, ?_⟩
  intro dropped
  rw [dropped.phase] at phase
  cases phase

end Session

end ExchangeNode
