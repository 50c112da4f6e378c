import ExchangeNode.Proofs.Session.Solitude

/-!
# Sessions that have been stopped

A loop may be anywhere when it is told to stop: asleep, with a heartbeat in flight, in the middle of
a new registration, or on its way to another exchange. The call that has told it waits until it has
ended. With one call at a time nothing is left after that which could call the directory.

`Tidy` says what one call at a time comes to: all loops are the current one or the one that the call
waits for. `Dormant` is what is left when a call that stops the loop has returned, and
`silent_after_done` that such a session stays silent until the user begins another call.
-/

namespace ExchangeNode

/-- Whether a job is a call that changes what a session holds. A question changes nothing. -/
def Work.intervenes : Work → Bool
  | .asking _ => false
  | _ => true

namespace Session

/-- A call that changes what a session holds begins only when nothing is at work but the current
loop and questions. A call that was dropped while it waited for a loop is at work until that has
ended. -/
def Unhurried (s : Session) (event : Event) : Prop := event.intervenes → Lone s

/-- Whether the user begins a call for which the session calls the directory. -/
def Event.engages : Event → Bool
  | .dial _ _ _ | .register _ _ _ | .unregister _ => true
  | _ => false

/-- At most one call is under way. Every loop that is left meanwhile is the current one or the one
that the call waits for, and once it waits or registers there is no current one. -/
structure Tidy (s : Session) : Prop where
  only : ∀ job work other w, s.jobs.get? job = some work → s.jobs.get? other = some w →
    work.intervenes → w.intervenes → other = job
  left : ∀ job work k, s.jobs.get? job = some work → work.intervenes → s.Alive k →
    s.current = some k ∨ work.loop? = some k
  idle : ∀ job work, s.jobs.get? job = some work → work.loop?.isSome ∨ work.applies →
    s.current = none

/-- Nothing is left that could call the directory, but for questions of the user. -/
structure Dormant (s : Session) : Prop where
  asking : ∀ job work, s.jobs.get? job = some work → ∃ wait, work = .asking wait
  ended : ∀ k, ¬ s.Alive k

variable {s t : Session} {event : Event} {turn : Turn} {job k : Nat} {work : Work}

/-! ### One call at a time -/

theorem intervenes_of_busy (busy : work.loop?.isSome ∨ work.applies) : work.intervenes := by
  cases work <;> first | rfl | simp [Work.loop?, Work.applies] at busy

theorem asking_of_not_intervenes (free : ¬ work.intervenes) : ∃ wait, work = .asking wait := by
  cases work with
  | asking wait => exact ⟨wait, rfl⟩
  | _ => exact absurd rfl free

theorem Lone.not_intervenes (lone : Lone s) (found : s.jobs.get? job = some work) :
    ¬ work.intervenes := by
  obtain ⟨wait, rfl⟩ := lone.asking job work found
  exact nofun

instance (s : Session) : Decidable (Lone s) :=
  decidable_of_iff ((∀ entry ∈ s.jobs.entries, ¬ entry.2.intervenes) ∧
      ∀ entry ∈ s.loops.entries, s.current = some entry.1)
    ⟨fun ⟨asking, current⟩ =>
      { asking := fun job work found =>
          asking_of_not_intervenes (asking (job, work) (Table.mem_of_get? found))
        current := fun k alive =>
          have ⟨l, found⟩ := Option.isSome_iff_exists.mp alive
          current (k, l) (Table.mem_of_get? found) },
      fun lone => ⟨fun _ member => lone.not_intervenes (Table.get?_of_mem member),
        fun entry member => lone.current entry.1 (alive_of_get? (Table.get?_of_mem member))⟩⟩

instance (s : Session) (event : Event) : Decidable (Unhurried s event) :=
  inferInstanceAs (Decidable (event.intervenes → Lone s))

/-- Nobody but the given job is at a call. -/
def Solo (s : Session) (job : Nat) : Prop :=
  ∀ other w, s.jobs.get? other = some w → w.intervenes → other = job

theorem Lone.solo (lone : Lone s) (job : Nat) : Solo s job :=
  fun _ _ found intervenes => absurd intervenes (lone.not_intervenes found)

theorem Tidy.solo (tidy : Tidy s) (found : s.jobs.get? job = some work)
    (intervenes : work.intervenes) : Solo s job :=
  fun other w isJob busy => tidy.only job work other w found isJob intervenes busy

/-- While the call that is under way waits for no loop, the current one is the only one. -/
theorem Tidy.isCurrent (tidy : Tidy s) (found : s.jobs.get? job = some work)
    (intervenes : work.intervenes) (free : work.loop? = none) (alive : s.Alive k) :
    s.current = some k := by
  obtain isCurrent | awaited := tidy.left job work k found intervenes alive
  · exact isCurrent
  · rw [free] at awaited
    cases awaited

theorem Fewer.alive (fewer : Fewer s t) (idle : t.current = none) (alive : t.Alive k) :
    s.Alive k := by
  obtain before | isCurrent := fewer k alive
  · exact before
  · rw [idle] at isCurrent
    cases isCurrent

/-- The call that is under way goes on to wait for something else. -/
theorem tidy_of_set (solo : Solo s job) (jobs : t.jobs = s.jobs.set job work)
    (left : ∀ k, t.Alive k → t.current = some k ∨ work.loop? = some k)
    (idle : work.loop?.isSome ∨ work.applies → t.current = none) : Tidy t := by
  have mine : ∀ other w, t.jobs.get? other = some w → w.intervenes → other = job ∧ w = work := by
    intro other w found intervenes
    rw [jobs] at found
    rcases Table.of_get?_set found with same | ⟨different, before⟩
    · exact same
    · exact absurd (solo other w before intervenes) different
  refine ⟨?_, ?_, ?_⟩
  · intro one w other v found isJob intervenes busy
    rw [(mine one w found intervenes).1, (mine other v isJob busy).1]
  · intro one w k found intervenes alive
    rw [(mine one w found intervenes).2]
    exact left k alive
  · intro one w found busy
    obtain ⟨-, rfl⟩ := mine one w found (intervenes_of_busy busy)
    exact idle busy

/-- The call that was under way has come to its end. -/
theorem tidy_of_erase (solo : Solo s job) (jobs : t.jobs = s.jobs.erase job) : Tidy t := by
  have free : ∀ other w, t.jobs.get? other = some w → ¬ w.intervenes := by
    intro other w found intervenes
    rw [jobs] at found
    obtain ⟨different, before⟩ := Table.of_get?_erase found
    exact different (solo other w before intervenes)
  exact ⟨fun one w _ _ found _ intervenes => absurd intervenes (free one w found),
    fun one w _ found intervenes => absurd intervenes (free one w found),
    fun one w found busy => absurd (intervenes_of_busy busy) (free one w found)⟩

/-- No call begins or goes on, and no loop begins. -/
theorem Tidy.of_kept (tidy : Tidy s) (fewer : Fewer s t) (current : t.current = s.current)
    (jobs : ∀ job work, t.jobs.get? job = some work → work.intervenes →
      s.jobs.get? job = some work) : Tidy t where
  only one w other v found isJob intervenes busy :=
    tidy.only one w other v (jobs one w found intervenes) (jobs other v isJob busy) intervenes busy
  left one w k found intervenes alive := by
    obtain before | isCurrent := fewer k alive
    · rw [current]
      exact tidy.left one w k (jobs one w found intervenes) intervenes before
    · exact .inl isCurrent
  idle one w found busy := by
    rw [current]
    exact tidy.idle one w (jobs one w found (intervenes_of_busy busy)) busy

/-- When a registration begins, no other call is under way, and no loop but the current one is
left. -/
theorem Tidy.of_applicant (tidy : Tidy s) (unhurried : Unhurried s event) {directory : String}
    {registration : Registration}
    (applies : s.applicant? event = some (job, directory, registration)) :
    Solo s job ∧ ∀ k, s.Alive k → s.current = some k := by
  obtain rfl | ⟨rfl, dialing⟩ := applicant?_spec applies
  · have lone := unhurried rfl
    exact ⟨lone.solo job, lone.current⟩
  -- The call has dialed, and has been the only one since it began.
  · exact ⟨tidy.solo dialing rfl, fun k alive => tidy.isCurrent dialing rfl rfl alive⟩

theorem tidy_course (tidy : Tidy s) (unhurried : Unhurried s event)
    (course : Course s event turn) : Tidy turn.1 := by
  have fewer : Fewer s turn.1 := fun k => alive_course course
  cases course with
  | clears applies busy =>
    obtain ⟨solo, left⟩ := tidy.of_applicant unhurried applies
    refine tidy_of_set solo rfl (fun k alive => .inr ?_) fun _ => rfl
    exact (current_of_halt busy).symm.trans (left k (fewer.alive rfl alive))
  | applies applies idle =>
    obtain ⟨solo, left⟩ := tidy.of_applicant unhurried applies
    refine tidy_of_set solo rfl (fun k alive => ?_) fun _ => rfl
    have before := fewer.alive rfl alive
    exact absurd before (not_alive_of_halt idle (left k before))
  -- The loop that the registration has waited for was the last.
  | cleared clearing ended =>
    have idle := tidy.idle _ _ clearing (.inr rfl)
    refine tidy_of_set (tidy.solo clearing rfl) rfl (fun k alive => ?_) fun _ => idle
    obtain isCurrent | awaited := tidy.left _ _ k clearing rfl alive
    · exact .inl isCurrent
    · cases awaited
      simp [apply, jobCalls, Alive, ended] at alive
  | dials | unregisters =>
    have lone := unhurried rfl
    exact tidy_of_set (lone.solo _) rfl (fun k alive => .inl (lone.current k alive))
      (by simp [Work.loop?, Work.applies])
  | stops busy =>
    have lone := unhurried rfl
    refine tidy_of_set (lone.solo _) rfl (fun k alive => .inr ?_) fun _ => rfl
    exact (current_of_halt busy).symm.trans (lone.current k (fewer.alive rfl alive))
  | revokes hears busy =>
    have revoking := jobHears?_spec hears
    refine tidy_of_set (tidy.solo revoking rfl) rfl (fun k alive => .inr ?_) fun _ => rfl
    have isCurrent := tidy.isCurrent revoking rfl rfl (fewer.alive rfl alive)
    exact (current_of_halt (s := s.revoke) busy).symm.trans isCurrent
  | adopts hears | revokesAtLast hears =>
    exact tidy_of_erase (tidy.solo (jobHears?_spec hears) rfl) rfl
  | stopsAtOnce => exact tidy_of_erase ((unhurried rfl).solo _) rfl
  -- A question may take the place of a call that is no longer waited for, but is none itself.
  | asks =>
    refine tidy.of_kept fewer rfl fun other w found intervenes => ?_
    rcases Table.of_get?_set found with ⟨-, rfl⟩ | ⟨-, before⟩
    · cases intervenes
    · exact before
  | undialed | forgets | unregistersInVain | stopped | asksInVain | learns | abandons | issues =>
    exact tidy.of_kept fewer rfl fun _ _ found _ => (Table.of_get?_erase found).2
  | _ => exact tidy.of_kept fewer rfl fun _ _ found _ => found

theorem tidy_step (tidy : Tidy s) (unhurried : Unhurried s event) : Tidy (s.step event).1 :=
  tidy_course tidy unhurried (step_course s event)

theorem tidy_fresh (options : KeepAliveOptions) (world : Surroundings) :
    Tidy (fresh options world) where
  only _ _ _ _ found := nomatch found
  left _ _ _ found := nomatch found
  idle _ _ found := nomatch found

theorem tidy_run {events : List Event} (tidy : Tidy s)
    (unhurried : Throughout Unhurried s events) : Tidy (s.run events).1 :=
  throughout_invariant Tidy (fun _ _ unhurried holds => tidy_step holds unhurried) tidy unhurried

/-! ### Users who wait for their calls to return -/

/-- The user begins a call when no other is under way, and lets a call that waits for a loop be. -/
structure Patient (s : Session) (event : Event) : Prop where
  alone : event.intervenes → ∀ job work, s.jobs.get? job = some work → ¬ work.intervenes
  staying : ∀ job work, s.jobs.get? job = some work → event.job? = some job → work.loop? = none

theorem lone_of_patient (settled : Settled s) (patient : Patient s event)
    (intervenes : event.intervenes) : Lone s :=
  lone_of_settled settled fun job work found =>
    asking_of_not_intervenes (patient.alone intervenes job work found)

theorem proper_of_patient (tidy : Tidy s) (settled : Settled s) (patient : Patient s event) :
    Proper s event where
  patient entry member about := patient.staying _ _ (Table.get?_of_mem member) about
  alone applies entry member := by
    have found := Table.get?_of_mem member
    obtain ⟨⟨job, directory, registration⟩, applies⟩ := Option.isSome_iff_exists.mp applies
    obtain ⟨solo, -⟩ := tidy.of_applicant (lone_of_patient settled patient) applies
    by_cases busy : entry.2.loop?.isSome ∨ entry.2.applies
    -- The only call that may be under way is the one that has dialed.
    · have same := solo _ _ found (intervenes_of_busy busy)
      obtain rfl | ⟨rfl, dialing⟩ := applicant?_spec applies
      · exact absurd (intervenes_of_busy busy) (patient.alone rfl _ _ found)
      · have isDialing := Option.some.inj (found.symm.trans (same ▸ dialing))
        simp [isDialing, Work.loop?, Work.applies] at busy
    · simpa using busy

/-- A user who lets every call return before the next one begins leaves no loop behind either. -/
theorem unhurried_of_patient (tidy : Tidy s) (settled : Settled s) {events : List Event}
    (patient : Throughout Patient s events) : Throughout Unhurried s events := by
  induction events generalizing s with
  | nil => trivial
  | cons event rest ih =>
    have unhurried : Unhurried s event := lone_of_patient settled patient.1
    have proper := proper_of_patient tidy settled patient.1
    exact ⟨unhurried, ih (tidy_step tidy unhurried) (settled_step settled proper) patient.2⟩

/-! ### Sessions that nothing is left of -/

/-- When a call that stops the loop returns, nothing is left. -/
theorem dormant_of_done (tidy : Tidy s) (unhurried : Unhurried s event)
    (course : Course s event turn) (returned : .finish job .done ∈ turn.2) : Dormant turn.1 := by
  have fewer : Fewer s turn.1 := fun k => alive_course course
  have asking : ∀ {one}, Solo s one → ∀ other w, (s.jobs.erase one).get? other = some w →
      ∃ wait, w = .asking wait := by
    intro one solo other w found
    obtain ⟨different, before⟩ := Table.of_get?_erase found
    exact asking_of_not_intervenes fun intervenes => different (solo other w before intervenes)
  cases course with
  | stopsAtOnce idle =>
    have lone := unhurried rfl
    refine ⟨asking (lone.solo _), fun k alive => ?_⟩
    have before := fewer.alive rfl alive
    exact not_alive_of_halt idle (lone.current k before) before
  | revokesAtLast hears idle =>
    have revoking := jobHears?_spec hears
    refine ⟨asking (tidy.solo revoking rfl), fun k alive => ?_⟩
    have before := fewer.alive rfl alive
    exact not_alive_of_revoke_halt idle (tidy.isCurrent revoking rfl rfl before) before
  | stopped stopping ended =>
    refine ⟨asking (tidy.solo stopping rfl), fun k alive => ?_⟩
    obtain isCurrent | awaited := tidy.left _ _ k stopping rfl alive
    · rw [tidy.idle _ _ stopping (.inl rfl)] at isCurrent
      cases isCurrent
    · cases awaited
      simp [finish, Alive, ended] at alive
  | issues ids kind notDone => simp [finish, notDone.symm] at returned
  | _ => simp [finish, jobCalls, loopCalls, apply] at returned

theorem Dormant.not_job (dormant : Dormant s) (found : s.jobs.get? job = some work)
    (intervenes : work.intervenes) : False := by
  obtain ⟨wait, rfl⟩ := dormant.asking job work found
  cases intervenes

theorem Dormant.not_loop (dormant : Dormant s) {l : Liveness}
    (found : s.loops.get? k = some l) : False :=
  dormant.ended k (alive_of_get? found)

theorem alive_of_halt {loop : Nat} (busy : s.halt.2 = some loop) : s.Alive loop :=
  (Option.filter_eq_some_iff.mp busy).2

/-- Such a session only passes questions of the user on, until another call begins. -/
theorem dormant_course (dormant : Dormant s) (calm : event.engages = false)
    (course : Course s event turn) :
    Dormant turn.1 ∧
      ∀ call request, .call call request ∈ turn.2 → ∃ node, request = .queryNode node := by
  have ended : ∀ k, ¬ turn.1.Alive k := by
    intro k alive
    obtain before | ⟨-, job, address, returned⟩ := alive_or_begins course alive
    · exact dormant.ended k before
    · obtain ⟨_, _, _, _, _, hears, -⟩ := adopts_of_returned course returned
      exact dormant.not_job (jobHears?_spec hears) rfl
  have erased : ∀ one other w, (s.jobs.erase one).get? other = some w → ∃ wait, w = .asking wait :=
    fun _ other w found => dormant.asking other w (Table.of_get?_erase found).2
  cases course with
  | dials | unregisters | unregistersInVain => cases calm
  | clears applies | applies applies =>
    obtain rfl | ⟨-, dialing⟩ := applicant?_spec applies
    · cases calm
    · exact (dormant.not_job dialing rfl).elim
  | undialed mine | cleared mine | stopped mine => exact (dormant.not_job mine rfl).elim
  | adopts hears | forgets hears | revokes hears | revokesAtLast hears =>
    exact (dormant.not_job (jobHears?_spec hears) rfl).elim
  | stops busy => exact absurd (alive_of_halt busy) (dormant.ended _)
  -- No loop is left that could take a turn.
  | starts found | beats found | dies found | heeds found => exact (dormant.not_loop found).elim
  | pauses hears | publishes hears | reconnects hears | renews hears | staysAsItIs hears
  | moves hears | movesAtOnce hears | defers hears | leaves hears =>
    exact (dormant.not_loop (loopHears?_spec hears).1).elim
  | asks =>
    refine ⟨⟨fun other w found => ?_, ended⟩, fun call request asked => ?_⟩
    · rcases Table.of_get?_set found with ⟨-, rfl⟩ | ⟨-, before⟩
      · exact ⟨_, rfl⟩
      · exact dormant.asking other w before
    · cases List.mem_singleton.mp asked
      exact ⟨_, rfl⟩
  | stopsAtOnce | asksInVain | learns | issues => exact ⟨⟨erased _, ended⟩, by simp [finish]⟩
  | abandons => exact ⟨⟨erased _, ended⟩, fun _ _ asked => absurd asked List.not_mem_nil⟩
  | _ => exact ⟨⟨dormant.asking, ended⟩, fun _ _ asked => absurd asked List.not_mem_nil⟩

theorem dormant_run {events : List Event} (dormant : Dormant s)
    (calm : ∀ event ∈ events, event.engages = false) {call : Nat} {request : Request}
    (asked : .call call request ∈ (s.run events).2) : ∃ node, request = .queryNode node := by
  induction events generalizing s with
  | nil => cases asked
  | cons event rest ih =>
    obtain ⟨after, asks⟩ :=
      dormant_course dormant (calm event List.mem_cons_self) (step_course s event)
    rw [run_cons, List.mem_append] at asked
    obtain now | later := asked
    · exact asks call request now
    · exact ih after (fun next member => calm next (.tail _ member)) later

/-- Once a call that stops the loop has returned, no heartbeat is sent, and nothing is registered or
given up, until the user begins a call for that. -/
theorem silent_after_done (options : KeepAliveOptions) (world : Surroundings)
    (before : List Event) (last : Event) (job : Nat)
    (unhurried : Throughout Unhurried (fresh options world) (before ++ [last]))
    (returned : .finish job .done ∈ (((fresh options world).run before).1.step last).2)
    (after : List Event) (calm : ∀ event ∈ after, event.engages = false) (call : Nat)
    (request : Request)
    (asked : .call call request ∈
      (((fresh options world).run (before ++ [last])).1.run after).2) :
    ∃ node, request = .queryNode node := by
  obtain ⟨earlier, atLast⟩ := (throughout_append _ before [last]).mp unhurried
  have tidy := tidy_run (tidy_fresh options world) earlier
  have dormant := dormant_of_done tidy atLast.1 (step_course _ last) returned
  rw [run_concat] at asked
  exact dormant_run dormant calm asked

/-- The user shuts the session down while its first heartbeat is in flight. The loop still registers
again, as it is asked to, and then heeds. -/
def shutDownInRound : List Event :=
  firstHeartbeat ++
    [.shutdown 1, .answer 1 (command .reconnect), .answer 2 (grant 8 1008), .heed 0]

theorem silent_after_shutDownInRound :
    Throughout Unhurried (fresh .standard stillWorld) (shutDownInRound ++ [.proceed 1]) ∧
      .finish 1 .done ∈ (((fresh .standard stillWorld).run shutDownInRound).1.step (.proceed 1)).2 ∧
      .call 3 (.queryNode 9) ∈
        (((fresh .standard stillWorld).run (shutDownInRound ++ [.proceed 1])).1.run
          [.elapse 60000, .wake 0, .query 2 9]).2 ∧
      ∃ node, Request.queryNode 9 = .queryNode node := by
  have unhurried :
      Throughout Unhurried (fresh .standard stillWorld) (shutDownInRound ++ [.proceed 1]) := by
    decide
  have returned : .finish 1 .done ∈
      (((fresh .standard stillWorld).run shutDownInRound).1.step (.proceed 1)).2 := by
    decide
  have asked : .call 3 (.queryNode 9) ∈
      (((fresh .standard stillWorld).run (shutDownInRound ++ [.proceed 1])).1.run
        [.elapse 60000, .wake 0, .query 2 9]).2 := by
    decide
  exact ⟨unhurried, returned, asked, silent_after_done _ _ _ _ _ unhurried returned
    [.elapse 60000, .wake 0, .query 2 9] (by decide) 3 _ asked⟩

end Session

end ExchangeNode
