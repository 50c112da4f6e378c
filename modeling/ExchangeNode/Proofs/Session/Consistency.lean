import ExchangeNode.Proofs.Session.Revocation
import ExchangeNode.Proofs.Session.Sequential

/-!
# Sessions between calls

Eight pieces of a session change together when a registration is answered, when the identity is
given up and when a loop registers again. Each of these leaves them in step with each other, as long
as calls and rounds do not overlap.

Between calls and rounds such a session is `Consistent`. Within them it is not; what holds there is
that whatever is under way is the only thing that is, and that it will set the phase right. That is
`Coherent`, and every step keeps it.
-/

namespace ExchangeNode.Session

/-- The parts of a session agree with each other. -/
structure Consistent (s : Session) : Prop where
  directory : s.identity = none ↔ s.directory = none
  registration : s.identity = none ↔ s.registration = none
  seed : s.identity = none ↔ s.ids.node = none
  phase : s.phase = .active ∨ s.phase = .unregistered
  active : s.phase = .active ↔ ∃ identity, s.identity = some identity ∧ identity.secret ≠ 0
  named : Named s
  bare : s.identity = none → s.heartbeat.secret = 0
  beating : ∀ loop l, s.loops.get? loop = some l → s.live?.isSome

variable {s t : Session} {event : Event} {turn : Turn}

/-! ### What is under way -/

def NoCalls (s : Session) : Prop := ∀ job work, s.jobs.get? job = some work → work.isCall = false

/-- The phase fits the identity, or somebody is about to set it. -/
inductive Phased (s : Session) : Prop where
  | active (phase : s.phase = .active) (live : s.live?.isSome)
  | unregistered (phase : s.phase = .unregistered) (dead : s.live? = none)
  | registering {job wait directory registration}
      (isJob : s.jobs.get? job = some (.registering wait directory registration))
  | reconnecting {loop l wait} (found : s.loops.get? loop = some l)
      (stage : l.stage = .reconnecting wait)

/-- What holds within calls and rounds. -/
structure Coherent (s : Session) : Prop where
  settled : Settled s
  held : Held s
  phased : Phased s
  /-- While a loop waits for the directory, the identity is live and no call is under way. -/
  round : ∀ loop l, s.loops.get? loop = some l → l.stage.wait?.isSome → s.live?.isSome ∧ NoCalls s
  /-- Only with a live identity is the current loop still there. -/
  current : ∀ loop, s.current = some loop → s.Alive loop → s.live?.isSome

theorem noCalls_of_entries (idle : ∀ entry ∈ s.jobs.entries, entry.2.isCall = false) : NoCalls s :=
  fun job work found => idle (job, work) (Table.mem_of_get? found)

theorem beginsCall_of_applicant? (applies : (s.applicant? event).isSome) :
    s.beginsCall event := by
  cases event <;> first | exact applies | rfl

theorem proper_of_sequential (sequential : Sequential s event) : Proper s event where
  patient entry member about := (Work.plain_of_isCall (sequential.complete entry member about)).1
  alone applies entry member :=
    Work.plain_of_isCall ((sequential.alone (beginsCall_of_applicant? applies)).calls entry member)

/-- Without calls under way only the current loop is left. -/
theorem current_of_noCalls (settled : Settled s) (idle : NoCalls s) {loop : Nat}
    (alive : s.Alive loop) : s.current = some loop := by
  refine current_of_alive settled (fun job work found => ?_) alive
  obtain ⟨noLoop, modest⟩ := Work.plain_of_isCall (idle job work found)
  simp [noLoop, modest]

/-- While a loop waits for the directory it is the only one. -/
theorem Coherent.only (coherent : Coherent s) {loop k : Nat} {l : Liveness}
    (found : s.loops.get? loop = some l) (waits : l.stage.wait?.isSome) (alive : s.Alive k) :
    k = loop := by
  obtain ⟨-, idle⟩ := coherent.round loop l found waits
  have mine := current_of_noCalls coherent.settled idle (alive_of_get? found)
  exact Option.some.inj ((current_of_noCalls coherent.settled idle alive).symm.trans mine)

/-- When a loop takes a turn that is no answer to a new registration, the phase fits. -/
theorem Coherent.phase_of_loop (coherent : Coherent s) {loop : Nat} {l : Liveness}
    (found : s.loops.get? loop = some l) (other : ∀ wait, l.stage ≠ .reconnecting wait) :
    s.phase = .active ∧ s.live?.isSome ∨ s.phase = .unregistered ∧ s.live? = none := by
  cases coherent.phased with
  | active phase live => exact .inl ⟨phase, live⟩
  | unregistered phase dead => exact .inr ⟨phase, dead⟩
  | registering isJob =>
    rw [no_loops_of_registering coherent.settled isJob loop] at found
    cases found
  | @reconnecting k m wait isLoop stage =>
    obtain rfl := coherent.only isLoop (by rw [stage]; rfl) (alive_of_get? found)
    rw [isLoop] at found
    cases found
    exact absurd stage (other wait)

/-! ### Steps of jobs -/

theorem AtRest.phase (rest : AtRest s) (coherent : Coherent s) :
    s.phase = .active ∧ s.live?.isSome ∨ s.phase = .unregistered ∧ s.live? = none := by
  cases coherent.phased with
  | active phase live => exact .inl ⟨phase, live⟩
  | unregistered phase dead => exact .inr ⟨phase, dead⟩
  | registering isJob => cases noCalls_of_entries rest.calls _ _ isJob
  | reconnecting found stage =>
    have free := rest.rounds _ (Table.mem_of_get? found)
    simp [stage, Stage.wait?] at free

theorem phased_of_fits (identity : t.identity = s.identity) (phase : t.phase = s.phase)
    (fits : s.phase = .active ∧ s.live?.isSome ∨ s.phase = .unregistered ∧ s.live? = none) :
    Phased t := by
  have live : t.live? = s.live? := by rw [live?, identity, ← live?]
  rcases fits with ⟨active, isLive⟩ | ⟨unregistered, dead⟩
  · exact .active (phase.trans active) (live ▸ isLive)
  · exact .unregistered (phase.trans unregistered) (live.trans dead)

/-- A job other than a call begins, changes or ends. -/
theorem phased_of_quiet (coherent : Coherent s) (identity : t.identity = s.identity)
    (phase : t.phase = s.phase) (loops : t.loops = s.loops)
    (kept : ∀ job wait directory registration,
      s.jobs.get? job = some (.registering wait directory registration) →
      t.jobs.get? job = some (.registering wait directory registration)) : Phased t := by
  cases coherent.phased with
  | active active live => exact phased_of_fits identity phase (.inl ⟨active, live⟩)
  | unregistered unregistered dead =>
    exact phased_of_fits identity phase (.inr ⟨unregistered, dead⟩)
  | registering isJob => exact .registering (kept _ _ _ _ isJob)
  | reconnecting found stage => exact .reconnecting (loops ▸ found) stage

/-- A call is none of the jobs that an event is about. -/
theorem ne_of_complete (sequential : Sequential s event) {job other : Nat} {work : Work}
    (about : event.job? = some job) (found : s.jobs.get? other = some work) (call : work.isCall) :
    other ≠ job := by
  rintro rfl
  rw [sequential.complete (other, work) (Table.mem_of_get? found) about] at call
  cases call

theorem ne_of_get? {job other : Nat} {work mine : Work} (isMine : s.jobs.get? job = some mine)
    (found : s.jobs.get? other = some work) (different : work ≠ mine) : other ≠ job := by
  rintro rfl
  rw [isMine] at found
  exact different (Option.some.inj found).symm

theorem get?_of_apart {job other : Nat} {work : Work} (apart : Apart s t job)
    (different : other ≠ job) (found : s.jobs.get? other = some work) :
    t.jobs.get? other = some work := by
  rw [apart other different, found]

/-- The call that a loop or a job hears the answer to is answered by the event itself. -/
theorem eq_answer_of_heard {call : Nat} {reply : Reply}
    (heard : s.heard? event = some (call, some reply)) : event = .answer call reply := by
  cases event with
  | answer =>
    cases heard
    rfl
  | timeout call =>
    simp only [heard?] at heard
    split at heard <;> cases heard
  | _ => cases heard

theorem judge_register {reply : Option Reply} {identity : Identity}
    (granted : judge .register reply = .ok identity) : reply = some (.ok (.identity identity)) := by
  match reply, granted with
  | some (.ok (.identity other)), granted =>
    cases granted
    rfl

/-- An identity that is granted is live. -/
theorem isLive_of_granted (sequential : Sequential s event) {call : Nat} {reply : Option Reply}
    {identity : Identity} (heard : s.heard? event = some (call, reply))
    (granted : judge .register reply = .ok identity) : identity.isLive := by
  rw [judge_register granted] at heard
  have secret := sequential.secret identity (by rw [eq_answer_of_heard heard]; rfl)
  simpa [Identity.isLive] using secret

theorem live?_of_isLive {identity : Identity} (held : s.identity = some identity)
    (isLive : identity.isLive) : s.live?.isSome := by
  simp [live?, held, Option.filter, isLive]

/-! ### The phase -/

theorem phased_course (coherent : Coherent s) (sequential : Sequential s event)
    (course : Course s event turn) : Phased turn.1 := by
  have quiet := @phased_of_quiet s turn.1 coherent
  -- The job of a registration is still there after a change to another one.
  have kept : ∀ {job : Nat}, Apart s turn.1 job →
      (∀ other wait directory registration,
        s.jobs.get? other = some (.registering wait directory registration) → other ≠ job) →
      ∀ other wait directory registration,
        s.jobs.get? other = some (.registering wait directory registration) →
        turn.1.jobs.get? other = some (.registering wait directory registration) :=
    fun apart different other _ _ _ isJob => get?_of_apart apart (different _ _ _ _ isJob) isJob
  cases course with
  | clears applies =>
    have rest := sequential.alone (beginsCall_of_applicant? (by rw [applies]; rfl))
    exact phased_of_fits rfl rfl (rest.phase coherent)
  | applies | cleared => exact .registering ((Table.get?_set ..).trans (if_pos rfl))
  | unregisters | stops | stopsAtOnce =>
    exact phased_of_fits rfl rfl ((sequential.alone rfl).phase coherent)
  | adopts hears granted =>
    obtain ⟨wait, -, heard⟩ := heard?_of_jobHears? hears
    exact .active rfl (live?_of_isLive rfl (isLive_of_granted sequential heard granted))
  | forgets => exact .unregistered rfl rfl
  | revokes | revokesAtLast | leaves => exact .unregistered rfl (live?_revoke s)
  | starts found starting =>
    exact phased_of_fits rfl rfl (coherent.phase_of_loop found (by simp [starting]))
  | beats found asleep | dies found asleep | heeds found _ asleep =>
    exact phased_of_fits rfl rfl (coherent.phase_of_loop found (by simp [asleep]))
  | pauses hears beating | publishes hears beating | moves hears beating
  | movesAtOnce hears beating | defers hears beating =>
    exact phased_of_fits rfl rfl
      (coherent.phase_of_loop (loopHears?_spec hears).1 (by simp [beating]))
  | reconnects hears => exact .reconnecting ((Table.get?_set ..).trans (if_pos rfl)) rfl
  | renews hears reconnecting granted =>
    obtain ⟨-, wait, -, heard⟩ := loopHears?_spec hears
    exact .active rfl (live?_of_isLive rfl (isLive_of_granted sequential heard granted))
  | staysAsItIs hears reconnecting =>
    obtain ⟨live, -⟩ := coherent.round _ _ (loopHears?_spec hears).1 (by rw [reconnecting]; rfl)
    exact .active rfl live
  | dials =>
    exact quiet rfl rfl rfl <| kept (apart_of_set rfl) fun _ _ _ _ isJob =>
      ne_of_complete sequential rfl isJob rfl
  | asks =>
    exact quiet rfl rfl rfl <| kept (apart_of_set rfl) fun _ _ _ _ isJob =>
      ne_of_complete sequential rfl isJob rfl
  | unregistersInVain | asksInVain | abandons | issues =>
    exact quiet rfl rfl rfl <| kept (apart_of_erase rfl) fun _ _ _ _ isJob =>
      ne_of_complete sequential rfl isJob rfl
  | undialed mine | stopped mine =>
    exact quiet rfl rfl rfl <| kept (apart_of_erase rfl) fun _ _ _ _ isJob =>
      ne_of_get? mine isJob nofun
  | learns hears =>
    exact quiet rfl rfl rfl <| kept (apart_of_erase rfl) fun _ _ _ _ isJob =>
      ne_of_get? (jobHears?_spec hears) isJob nofun
  | _ => exact quiet rfl rfl rfl fun _ _ _ _ isJob => isJob

/-! ### Rounds -/

/-- A loop that stays where it is, and there waits for the directory, is in a round. -/
theorem Coherent.round_of_stays (coherent : Coherent s) {k : Nat} {l : Liveness}
    (stays : Stays s k l) (waits : l.stage.wait?.isSome) : s.live?.isSome ∧ NoCalls s := by
  obtain ⟨m, found, same, -⟩ := stays
  exact coherent.round k m found (same ▸ waits)

theorem not_waits_of_rest (rest : AtRest s) {k : Nat} {l : Liveness} (stays : Stays s k l) :
    ¬ l.stage.wait?.isSome := by
  obtain ⟨m, found, same, -⟩ := stays
  have free := rest.rounds (k, m) (Table.mem_of_get? found)
  rw [same] at free
  simp [free]

theorem not_waits_of_call (coherent : Coherent s) {job k : Nat} {work : Work} {l : Liveness}
    (found : s.jobs.get? job = some work) (call : work.isCall) (stays : Stays s k l) :
    ¬ l.stage.wait?.isSome := by
  intro waits
  rw [(coherent.round_of_stays stays waits).2 job work found] at call
  cases call

theorem stays_of_revoke_halt {k : Nat} {l : Liveness}
    (found : s.revoke.halt.1.loops.get? k = some l) : Stays s k l := by
  obtain ⟨⟨m, before, stage, told⟩, -⟩ := stays_of_stopCurrent found
  obtain ⟨⟨n, first, same, toldBefore⟩, -⟩ := stays_of_stopCurrent before
  exact ⟨n, first, same.trans stage, told ∘ toldBefore⟩

/-- A loop that has left its exchange was the last. -/
theorem no_loops_of_leaves (coherent : Coherent s) {loop k : Nat} {l m : Liveness}
    {order : HeartbeatReply} (found : s.loops.get? loop = some l) (waits : l.stage.wait?.isSome) :
    (s.revoke.moved loop m order).loops.get? k = none := by
  have dead : s.revoke.live? = none := live?_revoke s
  cases left : (s.revoke.moved loop m order).loops.get? k with
  | none => rfl
  | some n =>
    have erased : (s.revoke.moved loop m order).loops = s.revoke.loops.erase loop := by
      simp only [moved, pause]
      split
      next identity live => cases live.symm.trans dead
      next => rfl
    rw [erased] at left
    obtain ⟨different, before⟩ := Table.of_get?_erase left
    exact absurd (coherent.only found waits (alive_of_stays (stays_of_stopCurrent before).1))
      different

theorem noCalls_of_set {job : Nat} {work : Work} (idle : NoCalls s)
    (jobs : t.jobs = s.jobs.set job work) (free : work.isCall = false) : NoCalls t := by
  intro other w found
  rw [jobs] at found
  rcases Table.of_get?_set found with ⟨-, rfl⟩ | ⟨-, before⟩
  · exact free
  · exact idle other w before

theorem noCalls_of_erase {job : Nat} (idle : NoCalls s) (jobs : t.jobs = s.jobs.erase job) :
    NoCalls t := by
  intro other w found
  rw [jobs] at found
  exact idle other w (Table.of_get?_erase found).2

theorem round_course (coherent : Coherent s) (sequential : Sequential s event)
    (apart : heartbeats turn.2 ≠ [] → NoCalls s) (course : Course s event turn) (k : Nat)
    (l : Liveness) (found : turn.1.loops.get? k = some l) (waits : l.stage.wait?.isSome) :
    turn.1.live?.isSome ∧ NoCalls turn.1 := by
  cases course with
  -- A call begins, and no loop waits.
  | clears applies | applies applies =>
    have rest := sequential.alone (beginsCall_of_applicant? (by rw [applies]; rfl))
    exact absurd waits (not_waits_of_rest rest (stays_of_stopCurrent found).1)
  | stops | stopsAtOnce =>
    exact absurd waits (not_waits_of_rest (sequential.alone rfl) (stays_of_stopCurrent found).1)
  | unregisters =>
    exact absurd waits (not_waits_of_rest (sequential.alone rfl) (stays_of_get? found))
  -- A call goes on or ends, and no loop waits.
  | cleared mine | stopped mine =>
    exact absurd waits (not_waits_of_call coherent mine rfl (stays_of_get? found))
  | revokes hears | revokesAtLast hears =>
    exact absurd waits
      (not_waits_of_call coherent (jobHears?_spec hears) rfl (stays_of_revoke_halt found))
  | forgets hears =>
    exact absurd waits
      (not_waits_of_call coherent (jobHears?_spec hears) rfl (stays_of_get? found))
  | adopts hears =>
    obtain ⟨m, before, stage, told⟩ | ⟨-, rfl⟩ := stays_of_set found
    · obtain ⟨n, first, same, toldBefore⟩ := (stays_of_stopCurrent before).1
      exact absurd waits (not_waits_of_call coherent (jobHears?_spec hears) rfl
        ⟨n, first, same.trans stage, told ∘ toldBefore⟩)
    · cases waits
  -- A round begins, goes on or ends.
  | beats _ _ live => exact ⟨live, apart (by simp [heartbeats, loopCalls])⟩
  | reconnects hears stage | moves hears stage | pauses hears stage | publishes hears stage
  | movesAtOnce hears stage | defers hears stage | staysAsItIs hears stage =>
    exact coherent.round _ _ (loopHears?_spec hears).1 (by rw [stage]; rfl)
  | renews hears stage granted =>
    obtain ⟨before, wait, -, heard⟩ := loopHears?_spec hears
    exact ⟨live?_of_isLive rfl (isLive_of_granted sequential heard granted),
      (coherent.round _ _ before (by rw [stage]; rfl)).2⟩
  | leaves hears moving =>
    rw [no_loops_of_leaves coherent (loopHears?_spec hears).1 (by rw [moving]; rfl)] at found
    cases found
  -- A loop takes another turn.
  | starts =>
    obtain stays | ⟨-, free, -⟩ := stays_of_pause found
    · exact coherent.round_of_stays stays waits
    · rw [free] at waits
      cases waits
  | dies | heeds => exact coherent.round_of_stays (stays_of_erase found) waits
  | dials | asks =>
    obtain ⟨live, idle⟩ := coherent.round k l found waits
    exact ⟨live, noCalls_of_set idle rfl rfl⟩
  | undialed | unregistersInVain | asksInVain | learns | abandons | issues =>
    obtain ⟨live, idle⟩ := coherent.round k l found waits
    exact ⟨live, noCalls_of_erase idle rfl⟩
  | _ => exact coherent.round k l found waits

/-! ### The current loop -/

theorem current_course (coherent : Coherent s) (sequential : Sequential s event)
    (course : Course s event turn) (k : Nat) (isCurrent : turn.1.current = some k)
    (alive : turn.1.Alive k) : turn.1.live?.isSome := by
  obtain ⟨l, found⟩ := Option.isSome_iff_exists.mp alive
  cases course with
  | clears | applies | stops | stopsAtOnce | revokes | revokesAtLast => cases isCurrent
  | adopts hears granted =>
    obtain ⟨wait, -, heard⟩ := heard?_of_jobHears? hears
    exact live?_of_isLive rfl (isLive_of_granted sequential heard granted)
  | forgets hears =>
    have none := (coherent.settled.alone _ _ (jobHears?_spec hears) rfl).1
    exact absurd (isCurrent.symm.trans none) nofun
  | renews hears stage granted =>
    obtain ⟨-, wait, -, heard⟩ := loopHears?_spec hears
    exact live?_of_isLive rfl (isLive_of_granted sequential heard granted)
  | leaves hears moving =>
    rw [no_loops_of_leaves coherent (loopHears?_spec hears).1 (by rw [moving]; rfl)] at found
    cases found
  | reconnects hears stage | moves hears stage | pauses hears stage | publishes hears stage
  | movesAtOnce hears stage | defers hears stage | staysAsItIs hears stage =>
    exact (coherent.round _ _ (loopHears?_spec hears).1 (by rw [stage]; rfl)).1
  | beats _ _ live => exact live
  | starts before =>
    obtain stays | ⟨rfl, -⟩ := stays_of_pause found
    · exact coherent.current k isCurrent (alive_of_stays stays)
    · exact coherent.current k isCurrent (alive_of_get? before)
  | dies | heeds => exact coherent.current k isCurrent (alive_of_stays (stays_of_erase found))
  | _ => exact coherent.current k isCurrent alive

/-! ### Runs -/

theorem coherent_step (coherent : Coherent s) (sequential : Sequential s event) :
    Coherent (s.step event).1 := by
  have apart : heartbeats (s.step event).2 ≠ [] → NoCalls s :=
    fun sent => noCalls_of_entries (sequential.apart sent)
  have course := step_course s event
  generalize s.step event = turn at course apart
  refine ⟨?_, ?_, ?_, ?_, ?_⟩
  · exact settled_course coherent.settled (proper_of_sequential sequential) course
  · refine held_course coherent.held course sequential.seeded ?_
    intro loop l wait found stage gone
    obtain ⟨live, -⟩ := coherent.round loop l found (by rw [stage]; rfl)
    simp [live?, gone] at live
  · exact phased_course coherent sequential course
  · exact round_course coherent sequential apart course
  · exact current_course coherent sequential course

theorem coherent_run (coherent : Coherent s) {events : List Event}
    (sequential : SequentialRun s events) : Coherent (s.run events).1 := by
  induction events generalizing s with
  | nil => exact coherent
  | cons event rest ih => exact ih (coherent_step coherent sequential.1) sequential.2

theorem coherent_fresh (options : KeepAliveOptions) (world : Surroundings) :
    Coherent (fresh options world) where
  settled := settled_fresh options world
  held := held_fresh options world
  phased := .unregistered rfl rfl
  round := nofun
  current := nofun

theorem live?_isSome_iff :
    s.live?.isSome ↔ ∃ identity, s.identity = some identity ∧ identity.secret ≠ 0 := by
  cases held : s.identity with
  | none => simp [live?, held]
  | some identity => simp [live?, held, Identity.isLive]

theorem consistent_of_rest (coherent : Coherent s) (rest : AtRest s) : Consistent s where
  directory := coherent.held.directory
  registration := coherent.held.registration
  seed := coherent.held.seed
  phase := (rest.phase coherent).imp And.left And.left
  active := by
    rw [← live?_isSome_iff]
    rcases rest.phase coherent with ⟨active, live⟩ | ⟨unregistered, dead⟩
    · exact iff_of_true active live
    · exact iff_of_false (by simp [unregistered]) (by simp [dead])
  named := coherent.held.named
  bare := coherent.held.bare
  beating loop l found := by
    have alive := alive_of_get? found
    have isCurrent := current_of_noCalls coherent.settled (noCalls_of_entries rest.calls) alive
    exact coherent.current loop isCurrent alive

/-- A session whose calls and rounds do not overlap is consistent whenever none of them is under
way. -/
theorem consistent_of_sequential (options : KeepAliveOptions) (world : Surroundings)
    (events : List Event) (sequential : SequentialRun (fresh options world) events)
    (rest : AtRest ((fresh options world).run events).1) :
    Consistent ((fresh options world).run events).1 :=
  consistent_of_rest (coherent_run (coherent_fresh options world) sequential) rest

/-- The directory asks for a new registration and grants number eight, and the user gives that up
again. -/
def renewedAndGivenUp : List Event :=
  firstHeartbeat ++
    [.answer 1 (command .reconnect), .answer 2 (grant 8 1008), .unregister 1,
      .answer 3 (.ok (.ack .done)), .heed 0, .proceed 1]

theorem consistent_of_renewedAndGivenUp :
    SequentialRun (fresh .standard stillWorld) renewedAndGivenUp ∧
      AtRest ((fresh .standard stillWorld).run renewedAndGivenUp).1 ∧
      Consistent ((fresh .standard stillWorld).run renewedAndGivenUp).1 := by
  have sequential : SequentialRun (fresh .standard stillWorld) renewedAndGivenUp := by decide
  have rest : AtRest ((fresh .standard stillWorld).run renewedAndGivenUp).1 := by decide
  exact ⟨sequential, rest, consistent_of_sequential _ _ _ sequential rest⟩

end ExchangeNode.Session
