import ExchangeNode.Proofs.Session.Refusal
import Mathlib.Data.List.Induction

/-!
# Locks that nothing releases

A node that is ordered to move with proposals in flight is locked, and a timer is to release it. A
call that stops the loop calls the timer off. It does not release the lock: a registration does so
when it succeeds, but one that is refused, the end of a session and giving the identity up leave a
node behind that is locked with no timer.

`stranded_iff_calledOff` says that this is the only way for a lock to lose its release, and that
such a lock lasts.
-/

namespace ExchangeNode.Session

/-- Locked, and no release is pending. -/
def Stranded (s : Session) : Prop := s.proposals.locked ∧ s.release = none

/-- An event with which a call that stops the loop calls a release off. -/
inductive CallsOff (s : Session) : Event → Prop where
  | registers {event applicant} (applies : s.applicant? event = some applicant) : CallsOff s event
  | shutsDown {job} : CallsOff s (.shutdown job)
  | givesUp {event job wait reply} (hears : s.jobHears? event = some (job, .revoking wait, reply)) :
      CallsOff s event

/-- In a run the release of a lock was called off, and the lock has lasted ever since. -/
def CalledOff (s : Session) (events : List Event) : Prop :=
  ∃ before event after, events = before ++ event :: after ∧
    (s.run before).1.proposals.locked ∧ CallsOff (s.run before).1 event ∧
    ∀ later, later <+: after → (s.run (before ++ event :: later)).1.proposals.locked

/-- What lifts a lock that no release is pending for. -/
inductive Lifts (s : Session) (effects : List Effect) : Event → Prop where
  | resets : Lifts s effects .reset
  | registers {event job address} (returned : .finish job (.exchange address) ∈ effects) :
      Lifts s effects event
  | leaves {event order} (leaves : Leaves s event order) : Lifts s effects event
  | obeys {event order} (obeys : Obeys s event order) (safe : s.proposals.isSafe) :
      Lifts s effects event

variable {s : Session} {event : Event} {turn : Turn}

/-! ### One step -/

theorem locked_track {side : Side} (p : Proposals) (advert : Advert side) :
    (p.track advert).locked = p.locked := by
  cases side with
  | supply | demand => rfl

theorem locked_retire (p : Proposals) (id : UInt64) : (p.retire id).locked = p.locked := by
  simp only [Proposals.retire]
  split
  · rfl
  · rfl

theorem proposals_register (s : Session) (job : Nat) (directory : String)
    (registration : Registration) :
    (s.register job directory registration).1.proposals = s.proposals := by
  have halted : s.halt.1.proposals = s.proposals := rfl
  simp only [register]
  split
  next stopped loop equal =>
    rw [equal] at halted
    exact halted
  next stopped equal =>
    rw [equal] at halted
    exact halted

/-- A call that stops the loop calls the release off, and leaves the lock. -/
theorem step_of_callsOff (callsOff : CallsOff s event) :
    (s.step event).1.release = none ∧ (s.step event).1.proposals = s.proposals := by
  cases callsOff with
  | @registers _ applicant applies =>
    obtain ⟨job, directory, registration⟩ := applicant
    rw [step_of_applicant applies]
    exact ⟨release_register s job directory registration, proposals_register s job directory _⟩
  | @shutsDown job =>
    obtain ⟨loop, -, turn⟩ | ⟨-, turn⟩ := s.shutdown_cases job
    · rw [step, turn]
      exact ⟨rfl, rfl⟩
    · rw [step, turn]
      exact ⟨rfl, rfl⟩
  | @givesUp _ job wait reply hears =>
    rw [step_of_jobHears? hears, jobAnswered, revoked]
    obtain ⟨loop, -, turn⟩ | ⟨-, turn⟩ := s.revoke.shutdown_cases job
    · rw [turn]
      exact ⟨rfl, rfl⟩
    · rw [turn]
      exact ⟨rfl, rfl⟩

/-- With any other event a lock that lasts keeps its release, and a new one comes with a release. -/
theorem release_of_not_callsOff (other : ¬ CallsOff s event) (unasked : event ≠ .lock)
    (course : Course s event turn) (locked : turn.1.proposals.locked) :
    (s.proposals.locked ∧ turn.1.release = s.release) ∨
      (s.proposals.locked = false ∧ turn.1.release.isSome) := by
  cases course with
  | clears applies | applies applies => exact absurd (.registers applies) other
  | stops | stopsAtOnce => exact absurd .shutsDown other
  | revokes hears | revokesAtLast hears => exact absurd (.givesUp hears) other
  -- The one event that locks arms the release with it.
  | defers _ _ _ _ _ unlocked => exact .inr ⟨unlocked, rfl⟩
  | tracks =>
    rw [locked_track] at locked
    exact .inl ⟨locked, rfl⟩
  | retires =>
    rw [locked_retire] at locked
    exact .inl ⟨locked, rfl⟩
  | locks => exact absurd rfl unasked
  -- Whatever forgets the proposals forgets the lock.
  | adopts | movesAtOnce | leaves | releases | resets => cases locked
  | _ => exact .inl ⟨locked, rfl⟩

theorem stranded_step_iff (unasked : event ≠ .lock) :
    Stranded (s.step event).1 ↔
      (Stranded s ∨ s.proposals.locked ∧ CallsOff s event) ∧
        (s.step event).1.proposals.locked := by
  -- After a call that stops the loop every lock is stranded; with any other event, only those that
  -- were before.
  by_cases callsOff : CallsOff s event
  · obtain ⟨idle, kept⟩ := step_of_callsOff callsOff
    simp only [Stranded, idle, kept, callsOff]
    grind
  · simp only [Stranded, callsOff, and_false, or_false]
    constructor
    · rintro ⟨locked, idle⟩
      rcases release_of_not_callsOff callsOff unasked (step_course s event) locked with
        ⟨before, same⟩ | ⟨-, armed⟩
      · exact ⟨⟨before, same.symm.trans idle⟩, locked⟩
      · rw [idle] at armed
        cases armed
    · rintro ⟨⟨before, idle⟩, locked⟩
      rcases release_of_not_callsOff callsOff unasked (step_course s event) locked with
        ⟨-, same⟩ | ⟨unlocked, -⟩
      · exact ⟨locked, same.trans idle⟩
      · rw [before] at unlocked
        cases unlocked

/-! ### Runs -/

theorem calledOff_concat_iff (s : Session) (events : List Event) (event : Event) :
    CalledOff s (events ++ [event]) ↔
      (CalledOff s events ∨ (s.run events).1.proposals.locked ∧ CallsOff (s.run events).1 event) ∧
        (s.run (events ++ [event])).1.proposals.locked := by
  constructor
  · rintro ⟨before, first, after, split, locked, callsOff, lasts⟩
    -- The release was called off by the last event, or before that.
    rcases List.eq_nil_or_concat after with rfl | ⟨later, last, rfl⟩
    · obtain ⟨rfl, same⟩ := List.append_inj' split rfl
      cases same
      exact ⟨.inr ⟨locked, callsOff⟩, lasts [] List.nil_prefix⟩
    · rw [List.concat_eq_append] at split lasts
      have shape : events ++ [event] = (before ++ first :: later) ++ [last] := by simpa using split
      obtain ⟨rfl, same⟩ := List.append_inj' shape rfl
      cases same
      refine ⟨.inl ⟨before, first, later, rfl, locked, callsOff, ?_⟩, ?_⟩
      · exact fun earlier within => lasts earlier (within.trans (List.prefix_append _ _))
      · simpa using lasts (later ++ [event]) List.prefix_rfl
  · rintro ⟨⟨before, first, after, rfl, locked, callsOff, lasts⟩ | ⟨locked, callsOff⟩, still⟩
    · refine ⟨before, first, after ++ [event], by simp, locked, callsOff, ?_⟩
      intro later within
      rcases List.prefix_concat_iff.mp within with rfl | earlier
      · simpa using still
      · exact lasts later earlier
    · refine ⟨events, event, [], rfl, locked, callsOff, ?_⟩
      intro later within
      rw [List.prefix_nil.mp within]
      exact still

theorem stranded_run_iff (unlocked : s.proposals.locked = false) {events : List Event}
    (unasked : ∀ event ∈ events, event ≠ .lock) :
    Stranded (s.run events).1 ↔ CalledOff s events := by
  induction events using List.reverseRecOn with
  | nil =>
    constructor
    · rintro ⟨locked, -⟩
      rw [run, unlocked] at locked
      cases locked
    · rintro ⟨before, event, after, split, -⟩
      simp at split
  | append_singleton past event ih =>
    have earlier : ∀ other ∈ past, other ≠ .lock :=
      fun other member => unasked other (List.mem_append_left _ member)
    have last : event ≠ .lock := unasked event (by simp)
    rw [calledOff_concat_iff, ← ih earlier, run_concat]
    exact stranded_step_iff last

/-! ### How such a lock ends -/

theorem stranded_course (stranded : Stranded s) (course : Course s event turn) :
    Stranded turn.1 ∨ Lifts s turn.2 event := by
  obtain ⟨locked, idle⟩ := stranded
  cases course with
  | clears | applies | stops | stopsAtOnce | revokes | revokesAtLast => exact .inl ⟨locked, rfl⟩
  | defers _ _ _ _ _ unlocked =>
    rw [locked] at unlocked
    cases unlocked
  | releases pending =>
    rw [idle] at pending
    cases pending
  | adopts => exact .inr (.registers List.mem_cons_self)
  | movesAtOnce hears beating answered ordered safe =>
    exact .inr (.obeys ⟨_, _, _, _, hears, beating, answered, ordered⟩ safe)
  | leaves hears moving => exact .inr (.leaves ⟨_, _, _, _, hears, moving⟩)
  | resets => exact .inr .resets
  | tracks => exact .inl ⟨(locked_track _ _).trans locked, idle⟩
  | retires => exact .inl ⟨(locked_retire _ _).trans locked, idle⟩
  | locks => exact .inl ⟨rfl, idle⟩
  | _ => exact .inl ⟨locked, idle⟩

/-- Where nothing is under way that could end it, only the user can. -/
theorem not_lifts_of_dormant (dormant : Dormant s) (unasked : event ≠ .reset)
    (course : Course s event turn) : ¬ Lifts s turn.2 event := by
  intro lifts
  cases lifts with
  | resets => exact unasked rfl
  | registers returned =>
    obtain ⟨_, _, _, _, _, hears, -⟩ := adopts_of_returned course returned
    exact dormant.not_job (jobHears?_spec hears) rfl
  | leaves leaves =>
    obtain ⟨_, _, _, _, hears, -⟩ := leaves
    exact dormant.not_loop (loopHears?_spec hears).1
  | obeys obeys =>
    obtain ⟨_, _, _, _, hears, -⟩ := obeys
    exact dormant.not_loop (loopHears?_spec hears).1

theorem stranded_of_dormant (stranded : Stranded s) (dormant : Dormant s) {events : List Event}
    (calm : ∀ event ∈ events, event.engages = false ∧ event ≠ .reset) :
    Stranded (s.run events).1 := by
  induction events generalizing s with
  | nil => exact stranded
  | cons event rest ih =>
    obtain ⟨passive, unasked⟩ := calm event List.mem_cons_self
    obtain ⟨asleep, -⟩ := dormant_course dormant passive (step_course s event)
    have lasts := not_lifts_of_dormant dormant unasked (step_course s event)
    have still := (stranded_course stranded (step_course s event)).resolve_right lasts
    exact ih still asleep fun next member => calm next (.tail _ member)

/-- In every run in which the user does not lock the node, a lock is without a release just if that
was called off while the node was locked, by a call that stops the loop, and the lock has lasted
since. It then lasts until the user resets it, a registration succeeds or a loop moves the node; and
for good where nothing is left under way and the user begins no call. -/
theorem stranded_iff_calledOff (options : KeepAliveOptions) (world : Surroundings)
    (events : List Event) (unasked : ∀ event ∈ events, event ≠ .lock) :
    let s := ((fresh options world).run events).1
    (Stranded s ↔ CalledOff (fresh options world) events) ∧
    (∀ event, Stranded s → Stranded (s.step event).1 ∨ Lifts s (s.step event).2 event) ∧
    ∀ later, Stranded s → Dormant s → (∀ event ∈ later, event.engages = false ∧ event ≠ .reset) →
      Stranded (s.run later).1 := by
  intro s
  refine ⟨stranded_run_iff rfl unasked, fun event stranded => ?_, fun later stranded dormant => ?_⟩
  · exact stranded_course stranded (step_course s event)
  · exact stranded_of_dormant stranded dormant

/-- The node proposes something, and is ordered to move when its first heartbeat is answered. The
user shuts the session down before the lock is released. -/
def shutDownWhileLocked : List Event :=
  proposing ++ [.answer 1 (command .serverChange), .shutdown 1, .heed 0, .proceed 1]

/-- Ten minutes later the node is still locked. -/
theorem stranded_after_shutdown :
    let s := ((fresh .standard stillWorld).run shutDownWhileLocked).1
    (∀ event ∈ shutDownWhileLocked, event ≠ .lock) ∧ Stranded s ∧ Dormant s ∧
      CalledOff (fresh .standard stillWorld) shutDownWhileLocked ∧
      Stranded (s.run [.elapse 600000, .release]).1 := by
  intro s
  have unasked : ∀ event ∈ shutDownWhileLocked, event ≠ .lock := by
    simp [shutDownWhileLocked, proposing, firstHeartbeat]
  have stranded : Stranded s := ⟨by decide, by decide⟩
  have noJobs : s.jobs = .empty := by decide
  have noLoops : s.loops = .empty := by decide
  have dormant : Dormant s := by
    constructor
    · intro job work found
      rw [noJobs] at found
      cases found
    · intro k alive
      rw [Alive, noLoops] at alive
      cases alive
  obtain ⟨calledOff, -, forGood⟩ :=
    stranded_iff_calledOff .standard stillWorld shutDownWhileLocked unasked
  refine ⟨unasked, stranded, dormant, calledOff.mp stranded, ?_⟩
  exact forGood [.elapse 600000, .release] stranded dormant (by simp [Event.engages])

/-- An order of the directory has locked the node, the session has been shut down since, and the
lock is left without a release. -/
theorem shutdown_strands_lock :
    let s := ((fresh .standard stillWorld).run shutDownWhileLocked).1
    (∀ event ∈ shutDownWhileLocked, event ≠ .lock) ∧
      .finish 1 .done ∈ ((fresh .standard stillWorld).run shutDownWhileLocked).2 ∧
      s.proposals.locked ∧ s.release = none := by
  refine ⟨?_, by decide, by decide, by decide⟩
  simp [shutDownWhileLocked, proposing, firstHeartbeat]

end ExchangeNode.Session
