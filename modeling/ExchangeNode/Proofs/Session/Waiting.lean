import ExchangeNode.Proofs.Session.Loops

/-!
# Jobs that wait for loops

A registration tells the current loop to stop and waits until it has ended. That the loops of all
earlier registrations have ended by then takes some order on the side of the user: a job that waits
for a loop has to be left to wait, or nobody waits for that loop any more, and no other registration
may be under way.

`Settled` is the invariant of runs in which the user keeps to that; `no_loops_of_registering` is
what it gives.
-/

namespace ExchangeNode

/-- Whether a job registers the node, or waits for a loop in order to do so. -/
def Work.applies : Work → Bool
  | .clearing _ _ _ | .registering _ _ _ => true
  | _ => false

namespace Session

/-- The job that the user begins or abandons with an event. -/
def Event.job? : Event → Option Nat
  | .dial job _ _ | .register job _ _ | .unregister job | .shutdown job | .query job _
  | .generate job | .abandon job => some job
  | _ => none

/-- The user lets the jobs that wait for a loop be, and registers only when there are none, nor
another registration. -/
structure Proper (s : Session) (event : Event) : Prop where
  patient : ∀ entry ∈ s.jobs.entries, event.job? = some entry.1 → entry.2.loop? = none
  alone : (s.applicant? event).isSome →
    ∀ entry ∈ s.jobs.entries, entry.2.loop? = none ∧ entry.2.applies = false

instance (s : Session) (event : Event) : Decidable (Proper s event) :=
  decidable_of_iff
    ((∀ entry ∈ s.jobs.entries, event.job? = some entry.1 → entry.2.loop? = none) ∧
      ((s.applicant? event).isSome →
        ∀ entry ∈ s.jobs.entries, entry.2.loop? = none ∧ entry.2.applies = false))
    ⟨fun ⟨patient, alone⟩ => ⟨patient, alone⟩, fun ⟨patient, alone⟩ => ⟨patient, alone⟩⟩

def Alive (s : Session) (loop : Nat) : Prop := (s.loops.get? loop).isSome

/-- Every loop that is left is the current one or is waited for. While a registration is under way
there is no current loop, and no other job registers or waits for a loop. -/
structure Settled (s : Session) : Prop where
  awaited : ∀ loop, s.Alive loop → s.current = some loop ∨
    ∃ job work, s.jobs.get? job = some work ∧ work.loop? = some loop
  alone : ∀ job work, s.jobs.get? job = some work → work.applies → s.current = none ∧
    ∀ other w, s.jobs.get? other = some w → w.loop?.isSome ∨ w.applies → other = job

/-- When the directory is asked, all loops have ended. -/
theorem no_loops_of_registering {s : Session} (settled : Settled s) {job : Nat} {wait : Wait}
    {directory : String} {registration : Registration}
    (registering : s.jobs.get? job = some (.registering wait directory registration)) (loop : Nat) :
    s.loops.get? loop = none := by
  obtain ⟨idle, only⟩ := settled.alone job _ registering rfl
  cases left : s.loops.get? loop with
  | none => rfl
  | some l =>
    have alive : s.Alive loop := by simp [Alive, left]
    obtain isCurrent | ⟨other, work, waiting, awaits⟩ := settled.awaited loop alive
    · rw [idle] at isCurrent
      cases isCurrent
    · -- The job that waits would be the one that registers, and that waits for no loop.
      obtain rfl := only other work waiting (.inl (by simp [awaits]))
      rw [registering] at waiting
      cases waiting
      cases awaits

variable {s t : Session} {event : Event} {turn : Turn} {loop k : Nat} {l : Liveness}

/-! ### Which loops are left -/

theorem alive_of_get? (found : s.loops.get? k = some l) : s.Alive k := by
  simp [Alive, found]

theorem alive_of_stays (stays : Stays s k l) : s.Alive k := by
  obtain ⟨m, found, -⟩ := stays
  exact alive_of_get? found

/-- A loop that is left was there before, or has just begun. -/
theorem alive_course (course : Course s event turn) (left : turn.1.Alive k) :
    s.Alive k ∨ turn.1.current = some k := by
  obtain ⟨l, found⟩ := Option.isSome_iff_exists.mp left
  obtain ⟨active, loops⟩ := loops_course course
  obtain stays | ⟨-, turns⟩ := loops k l found
  · exact .inl (alive_of_stays stays)
  · cases turns with
    | goesOn before => exact .inl (alive_of_get? before)
    | begins isCurrent => exact .inr isCurrent

/-- A loop that is left was there before, or has been begun by a registration that returns. -/
theorem alive_or_begins (course : Course s event turn) (left : turn.1.Alive k) :
    s.Alive k ∨ (k = s.nextLoop ∧ ∃ job address, .finish job (.exchange address) ∈ turn.2) := by
  obtain ⟨l, found⟩ := Option.isSome_iff_exists.mp left
  obtain ⟨active, loops⟩ := loops_course course
  obtain stays | ⟨-, turns⟩ := loops k l found
  · exact .inl (alive_of_stays stays)
  · cases turns with
    | goesOn before => exact .inl (alive_of_get? before)
    | begins _ _ new returned => exact .inr ⟨new, _, _, returned⟩

theorem current_of_halt (busy : s.halt.2 = some loop) : s.current = some loop := by
  exact (Option.filter_eq_some_iff.mp busy).1

theorem not_alive_of_halt (idle : s.halt.2 = none) (isCurrent : s.current = some k) :
    ¬ s.Alive k := by
  have ended : s.loops.contains k = false := by simpa [halt, isCurrent] using idle
  exact fun left => Bool.false_ne_true (ended.symm.trans left)

theorem not_alive_of_revoke_halt (idle : s.revoke.halt.2 = none) (isCurrent : s.current = some k) :
    ¬ s.Alive k := by
  intro left
  obtain ⟨l, found⟩ := Option.isSome_iff_exists.mp left
  obtain ⟨m, still⟩ := get?_loops_revoke found
  exact not_alive_of_halt (s := s.revoke) idle isCurrent (by simp [Alive, still])

/-! ### What jobs and loops do to the order -/

/-- Every loop of the later session was there before, unless it is current. -/
def Fewer (s t : Session) : Prop := ∀ k, t.Alive k → s.Alive k ∨ t.current = some k

/-- A job whose end or change frees no loop: it waits for none, or for one that has ended. -/
def Frees (s : Session) (job : Nat) : Prop :=
  ∀ work loop, s.jobs.get? job = some work → work.loop? = some loop → ¬ s.Alive loop

theorem frees_of_get? {job : Nat} {work : Work} (found : s.jobs.get? job = some work)
    (plain : work.loop? = none) : s.Frees job := by
  intro other loop same awaits
  rw [found] at same
  cases same
  rw [plain] at awaits
  cases awaits

theorem frees_of_proper (proper : Proper s event) {job : Nat} (about : event.job? = some job) :
    s.Frees job := by
  intro work loop found awaits
  rw [proper.patient (job, work) (Table.mem_of_get? found) about] at awaits
  cases awaits

theorem Settled.of_fewer (settled : Settled s) (fewer : Fewer s t) (jobs : t.jobs = s.jobs)
    (current : t.current = s.current) : Settled t where
  awaited := by
    intro k left
    obtain before | isCurrent := fewer k left
    · rw [jobs, current]
      exact settled.awaited k before
    · exact .inl isCurrent
  alone := by
    rw [jobs, current]
    exact settled.alone

/-- The other jobs are as they were. -/
def Apart (s t : Session) (job : Nat) : Prop :=
  ∀ other, other ≠ job → t.jobs.get? other = s.jobs.get? other

theorem apart_of_set {job : Nat} {work : Work} (jobs : t.jobs = s.jobs.set job work) :
    Apart s t job := by
  intro other different
  rw [jobs, Table.get?_set, if_neg different]

theorem apart_of_erase {job : Nat} (jobs : t.jobs = s.jobs.erase job) : Apart s t job := by
  intro other different
  rw [jobs, Table.get?_erase, if_neg different]

/-- A loop that somebody else waits for is still waited for. -/
theorem waiter_of_apart {job other : Nat} {work : Work} (apart : Apart s t job)
    (frees : s.Frees job) (found : s.jobs.get? other = some work) (awaits : work.loop? = some k)
    (left : s.Alive k) : t.jobs.get? other = some work := by
  have different : other ≠ job := fun same => frees work k (same ▸ found) awaits left
  rw [apart other different, found]

/-- A job comes to a point where it neither waits for a loop nor registers. The current loop stays
what it is, or has ended. -/
theorem Settled.of_plain (settled : Settled s) (fewer : Fewer s t) {job : Nat}
    (apart : Apart s t job)
    (plain : ∀ work, t.jobs.get? job = some work → work.loop? = none ∧ work.applies = false)
    (current : t.current = s.current ∨ (t.current = none ∧ ∀ k, s.current = some k → ¬ s.Alive k))
    (frees : s.Frees job) : Settled t where
  awaited := by
    intro k left
    obtain before | isCurrent := fewer k left
    · obtain isCurrent | ⟨other, work, found, awaits⟩ := settled.awaited k before
      -- A loop that was current and is no longer has ended.
      · obtain same | ⟨-, ended⟩ := current
        · exact .inl (same.trans isCurrent)
        · exact absurd before (ended k isCurrent)
      · exact .inr ⟨other, work, waiter_of_apart apart frees found awaits before, awaits⟩
    · exact .inl isCurrent
  alone := by
    -- A job that registers or waits is not the one that has changed.
    have kept : ∀ other work, t.jobs.get? other = some work → work.loop?.isSome ∨ work.applies →
        s.jobs.get? other = some work := by
      intro other work found busy
      by_cases same : other = job
      · obtain ⟨noLoop, modest⟩ := plain work (same ▸ found)
        simp [noLoop, modest] at busy
      · rwa [apart other same] at found
    intro other work found applies
    obtain ⟨idle, only⟩ := settled.alone other work (kept other work found (.inr applies)) applies
    refine ⟨current.elim (fun same => same.trans idle) And.left, ?_⟩
    exact fun third w isJob busy => only third w (kept third w isJob busy) busy

/-- A registration asks the directory when all loops have ended. -/
theorem settled_of_registering (fewer : Fewer s t) {job : Nat} (apart : Apart s t job)
    (current : t.current = none) (ended : ∀ k, ¬ s.Alive k)
    (only : ∀ other w, s.jobs.get? other = some w → w.loop?.isSome ∨ w.applies → other = job) :
    Settled t where
  awaited k left := (fewer k left).elim (absurd · (ended k)) .inl
  alone := by
    have single : ∀ other w, t.jobs.get? other = some w → w.loop?.isSome ∨ w.applies →
        other = job := by
      intro other w found busy
      by_cases same : other = job
      · exact same
      · rw [apart other same] at found
        exact only other w found busy
    intro other w found applies
    obtain rfl := single other w found (.inr applies)
    exact ⟨current, single⟩

/-- A job begins to wait for the current loop, which is then no longer current. -/
theorem Settled.of_waiting (settled : Settled s) (fewer : Fewer s t) {job : Nat} (work : Work)
    (apart : Apart s t job) (waits : t.jobs.get? job = some work) (awaits : work.loop? = some loop)
    (busy : s.current = some loop) (current : t.current = none) (frees : s.Frees job)
    (only : work.applies → ∀ other w, s.jobs.get? other = some w → w.loop?.isSome → other = job) :
    Settled t where
  awaited := by
    intro k left
    obtain before | isCurrent := fewer k left
    · obtain isCurrent | ⟨other, w, found, loop⟩ := settled.awaited k before
      -- The loop that was current has found somebody to wait for it.
      · obtain rfl := Option.some.inj (busy.symm.trans isCurrent)
        exact .inr ⟨job, work, waits, awaits⟩
      · exact .inr ⟨other, w, waiter_of_apart apart frees found loop before, loop⟩
    · exact .inl isCurrent
  alone := by
    -- No registration is under way beside a current loop.
    have none : ∀ other w, s.jobs.get? other = some w → w.applies = false := by
      intro other w found
      cases applies : w.applies with
      | false => rfl
      | true =>
        rw [(settled.alone other w found applies).1] at busy
        cases busy
    intro other w found applies
    by_cases same : other = job
    · cases same
      obtain rfl := Option.some.inj (waits.symm.trans found)
      refine ⟨current, fun third v isJob loops => ?_⟩
      by_cases own : third = job
      · exact own
      · rw [apart third own] at isJob
        exact only applies third v isJob (loops.resolve_right (by simp [none third v isJob]))
    · rw [apart other same] at found
      rw [none other w found] at applies
      cases applies

/-! ### Every proper step keeps the order -/

theorem only_of_proper (proper : Proper s event) (applies : (s.applicant? event).isSome) :
    ∀ job work, s.jobs.get? job = some work → ¬ (work.loop?.isSome ∨ work.applies) := by
  intro job work found
  obtain ⟨noLoop, modest⟩ := proper.alone applies (job, work) (Table.mem_of_get? found)
  simp [noLoop, modest]

/-- Where nobody waits for a loop, only the current one is left. -/
theorem current_of_alive (settled : Settled s)
    (nobody : ∀ job work, s.jobs.get? job = some work → ¬ (work.loop?.isSome ∨ work.applies))
    (left : s.Alive k) : s.current = some k := by
  obtain isCurrent | ⟨job, work, found, awaits⟩ := settled.awaited k left
  · exact isCurrent
  · exact absurd (.inl (by simp [awaits])) (nobody job work found)

theorem not_alive_of_registering (settled : Settled s) {job : Nat} {wait : Wait}
    {directory : String} {registration : Registration}
    (registering : s.jobs.get? job = some (.registering wait directory registration)) :
    ¬ s.Alive k := by
  intro left
  simp [Alive, no_loops_of_registering settled registering k] at left

theorem settled_course (settled : Settled s) (proper : Proper s event)
    (course : Course s event turn) : Settled turn.1 := by
  have fewer : Fewer s turn.1 := fun k => alive_course course
  cases course with
  | @clears _ job directory registration loop applies busy =>
    have nobody := only_of_proper proper (by simp [applies])
    refine settled.of_waiting fewer (.clearing loop directory registration) (apart_of_set rfl)
      (by simp) rfl (current_of_halt busy) rfl ?_ ?_
    · exact fun work k found awaits => absurd (.inl (by simp [awaits])) (nobody job work found)
    · exact fun _ other w found awaits => absurd (.inl awaits) (nobody other w found)
  | applies applies idle =>
    have nobody := only_of_proper proper (by simp [applies])
    refine settled_of_registering fewer (apart_of_set rfl) rfl ?_ ?_
    · exact fun k left => not_alive_of_halt idle (current_of_alive settled nobody left) left
    · exact fun other w found busy => absurd busy (nobody other w found)
  -- The loop that this job has waited for was the last.
  | cleared clearing ended =>
    obtain ⟨idle, only⟩ := settled.alone _ _ clearing rfl
    refine settled_of_registering fewer (apart_of_set rfl) idle ?_ only
    intro k left
    obtain isCurrent | ⟨other, work, found, awaits⟩ := settled.awaited k left
    · rw [idle] at isCurrent
      cases isCurrent
    · obtain rfl := only other work found (.inl (by simp [awaits]))
      rw [clearing] at found
      cases found
      cases awaits
      simp [Alive, ended] at left
  | adopts hears =>
    have registering := jobHears?_spec hears
    refine ⟨fun k left => ?_, fun other work found applies => ?_⟩
    · exact .inl ((fewer k left).resolve_left (not_alive_of_registering settled registering))
    · obtain ⟨different, before⟩ := Table.of_get?_erase found
      obtain ⟨-, only⟩ := settled.alone _ _ registering rfl
      exact absurd (only other work before (.inr applies)) different
  | dials =>
    exact settled.of_plain fewer (apart_of_set rfl) (by simp [Work.loop?, Work.applies]) (.inl rfl)
      (frees_of_proper proper rfl)
  | unregisters | asks =>
    exact settled.of_plain fewer (apart_of_set rfl) (by simp [jobCalls, Work.loop?, Work.applies])
      (.inl rfl) (frees_of_proper proper rfl)
  | unregistersInVain | asksInVain | issues | abandons =>
    exact settled.of_plain fewer (apart_of_erase rfl) (by simp [finish]) (.inl rfl)
      (frees_of_proper proper rfl)
  | undialed dialing =>
    exact settled.of_plain fewer (apart_of_erase rfl) (by simp [finish]) (.inl rfl)
      (frees_of_get? dialing rfl)
  | forgets hears | learns hears =>
    exact settled.of_plain fewer (apart_of_erase rfl) (by simp [finish]) (.inl rfl)
      (frees_of_get? (jobHears?_spec hears) rfl)
  | @stopped job loop stopping ended =>
    have frees : s.Frees job := by
      intro work k found awaits left
      rw [stopping] at found
      cases found
      cases awaits
      simp [Alive, ended] at left
    exact settled.of_plain fewer (apart_of_erase rfl) (by simp [finish]) (.inl rfl) frees
  | @revokes _ job wait reply loop hears busy =>
    exact settled.of_waiting fewer (.stopping loop) (apart_of_set rfl) (by simp) rfl
      (current_of_halt (s := s.revoke) busy) rfl (frees_of_get? (jobHears?_spec hears) rfl)
      (by simp [Work.applies])
  | @stops job loop busy =>
    exact settled.of_waiting fewer (.stopping loop) (apart_of_set rfl) (by simp) rfl
      (current_of_halt busy) rfl (frees_of_proper proper rfl) (by simp [Work.applies])
  | revokesAtLast hears idle =>
    exact settled.of_plain fewer (apart_of_erase rfl) (by simp [finish])
      (.inr ⟨rfl, fun k => not_alive_of_revoke_halt idle⟩)
      (frees_of_get? (jobHears?_spec hears) rfl)
  | stopsAtOnce idle =>
    exact settled.of_plain fewer (apart_of_erase rfl) (by simp [finish])
      (.inr ⟨rfl, fun k => not_alive_of_halt idle⟩) (frees_of_proper proper rfl)
  -- The loops take turns, and no job notices.
  | _ => exact settled.of_fewer fewer rfl rfl

theorem settled_step (settled : Settled s) (proper : Proper s event) : Settled (s.step event).1 :=
  settled_course settled proper (step_course s event)

theorem settled_fresh (options : KeepAliveOptions) (world : Surroundings) :
    Settled (fresh options world) where
  awaited := nofun
  alone := nofun

/-- When a registration returns, the loop that it has started is the only one left. -/
theorem starting_of_returned (settled : Settled s) (course : Course s event turn) {job : Nat}
    {address : String} (returned : .finish job (.exchange address) ∈ turn.2)
    (found : turn.1.loops.get? k = some l) : l.stage = .starting := by
  obtain ⟨wait, directory, registration, reply, identity, hears, -⟩ :=
    adopts_of_returned course returned
  have none : ¬ s.Alive k := not_alive_of_registering settled (jobHears?_spec hears)
  obtain ⟨active, loops⟩ := loops_course course
  obtain stays | ⟨-, turns⟩ := loops k l found
  · exact absurd (alive_of_stays stays) none
  · cases turns with
    | goesOn before => exact absurd (alive_of_get? before) none
    | begins _ starting => exact starting

end Session

end ExchangeNode
