import ExchangeNode.Proofs.Session.Loops
import ExchangeNode.Proofs.Session.Revocation

/-!
# The identity that is given up

Whoever gives an identity up names it to the directory and drops what the session holds when the
answer comes. Meanwhile a registration or a loop may have taken on another identity. It is then this
one that is dropped, which the directory was not told about.

`dropped_eq_passed_iff` says for every run and every time an identity is dropped which one it is,
and when that is the one that the directory was told about.
-/

namespace ExchangeNode.Session

/-- The identity that a loop takes on after it has registered again. -/
def renewed? (s : Session) (event : Event) : Option Identity :=
  match s.loopHears? event with
  | some (_, ⟨_, _, .reconnecting _⟩, reply) => (judge .register reply).toOption
  | _ => none

/-- The identity that a registration of the user takes on. -/
def adopted? (s : Session) (event : Event) : Option Identity :=
  match s.jobHears? event with
  | some (_, .registering _ _ _, reply) =>
    (judge .register reply).toOption.filter fun identity =>
      IdGenerator.accepts identity.node.toInt
  | _ => none

/-- The identity that a session takes on with an event. -/
def taken? (s : Session) (event : Event) : Option Identity :=
  (s.renewed? event).or (s.adopted? event)

/-- All identities that a session takes on in a run, in order. -/
def taken (s : Session) : List Event → List Identity
  | [] => []
  | event :: rest => (s.taken? event).toList ++ (s.step event).1.taken rest

variable {s : Session} {event : Event} {turn : Turn}

/-! ### One step -/

theorem taken?_of_unheard (unheard : s.heard? event = none) : s.taken? event = none := by
  simp [taken?, renewed?, adopted?, loopHears?, jobHears?, unheard]

theorem renewed?_of_loopHears? {loop : Nat} {l : Liveness} {reply : Option Reply}
    (hears : s.loopHears? event = some (loop, l, reply))
    (other : ∀ wait, l.stage ≠ .reconnecting wait) : s.renewed? event = none := by
  obtain ⟨stopped, failures, stage⟩ := l
  simp only [renewed?, hears]
  cases stage with
  | reconnecting wait => exact absurd rfl (other wait)
  | _ => rfl

theorem taken?_of_loopHears? {loop : Nat} {l : Liveness} {reply : Option Reply}
    (hears : s.loopHears? event = some (loop, l, reply)) : s.taken? event = s.renewed? event := by
  simp [taken?, adopted?, jobHears?_of_loopHears? hears]

theorem renewed?_of_reconnecting {loop : Nat} {l : Liveness} {wait : Wait} {reply : Option Reply}
    (hears : s.loopHears? event = some (loop, l, reply)) (stage : l.stage = .reconnecting wait) :
    s.renewed? event = (judge .register reply).toOption := by
  obtain ⟨stopped, failures, _⟩ := l
  cases stage
  simp only [renewed?, hears]

theorem taken?_of_jobHears? {job : Nat} {work : Work} {reply : Option Reply}
    (hears : s.jobHears? event = some (job, work, reply)) :
    s.taken? event = s.adopted? event := by
  simp [taken?, renewed?, loopHears?_of_jobHears? hears]

/-- What a step makes of the identity. -/
inductive Passes (s : Session) (event : Event) (after : Session) : Prop where
  | takes {new} (took : s.taken? event = some new) (holds : after.identity = some new)
  | keeps (took : s.taken? event = none) (same : after.identity = s.identity)
  | revokes (took : s.taken? event = none) (gone : after.identity = s.identity.map Identity.revoked)
  | forgets (took : s.taken? event = none) (gone : after.identity = none)

theorem passes_course (course : Course s event turn) : Passes s event turn.1 := by
  -- Where nothing is heard, nothing is taken on.
  have unheard : s.heard? event = none → turn.1.identity = s.identity → Passes s event turn.1 :=
    fun quiet same => .keeps (taken?_of_unheard quiet) same
  have beating : ∀ {loop l wait reply}, s.loopHears? event = some (loop, l, reply) →
      l.stage = .beating wait → turn.1.identity = s.identity → Passes s event turn.1 := by
    intro loop l wait reply hears stage same
    refine .keeps ?_ same
    rw [taken?_of_loopHears? hears, renewed?_of_loopHears? hears (by simp [stage])]
  cases course with
  | adopts hears granted accepted =>
    refine .takes ?_ rfl
    rw [taken?_of_jobHears? hears]
    simp [adopted?, hears, granted, Except.toOption, accepted]
  | @forgets _ _ _ _ _ reply _ hears denied =>
    refine .forgets ?_ rfl
    rw [taken?_of_jobHears? hears]
    simp only [adopted?, hears, Option.filter_eq_none_iff]
    intro identity answered
    cases judged : judge .register reply with
    | error e =>
      rw [judged] at answered
      cases answered
    | ok granted =>
      rw [judged] at answered
      cases answered
      simp [denied identity judged]
  | renews hears stage granted =>
    refine .takes ?_ rfl
    rw [taken?_of_loopHears? hears, renewed?_of_reconnecting hears stage, granted]
    rfl
  | staysAsItIs hears stage failed =>
    refine .keeps ?_ rfl
    rw [taken?_of_loopHears? hears, renewed?_of_reconnecting hears stage, failed]
    rfl
  | revokes hears | revokesAtLast hears =>
    refine .revokes ?_ rfl
    rw [taken?_of_jobHears? hears]
    simp only [adopted?, hears]
  | leaves hears moving =>
    refine .revokes ?_ rfl
    rw [taken?_of_loopHears? hears, renewed?_of_loopHears? hears (by simp [moving])]
  | learns hears =>
    refine .keeps ?_ rfl
    rw [taken?_of_jobHears? hears]
    simp only [adopted?, hears]
  | pauses hears stage | publishes hears stage | reconnects hears stage | moves hears stage
  | movesAtOnce hears stage | defers hears stage => exact beating hears stage rfl
  | misses may noLoop noJob => exact .keeps (by simp [taken?, renewed?, adopted?, noLoop, noJob]) rfl
  | outside world isOutside =>
    cases event with
    | elapse | setClock | setRandom | setLoad => exact unheard rfl rfl
    | _ => cases isOutside
  | clears applies | applies applies =>
    cases event with
    | register | dialed => exact unheard rfl rfl
    | _ => cases applies
  | _ => exact unheard rfl rfl

theorem passed_course (course : Course s event turn) {call : Nat} {passed : Identity}
    (asked : .call call (.unregister passed) ∈ turn.2) :
    s.live? = some passed ∧ turn.1.identity = s.identity := by
  cases course with
  | unregisters live | moves _ _ _ _ _ live =>
    cases List.mem_singleton.mp asked
    exact ⟨live, rfl⟩
  | _ => simp [finish, jobCalls, loopCalls, apply] at asked

/-- Somebody waits for the answer to giving up an identity, as call `call`. -/
inductive GivesUp (s : Session) (call : Nat) : Prop where
  | job {job wait} (revoking : s.jobs.get? job = some (.revoking wait)) (same : wait.call = call)
  | loop {loop l wait order} (found : s.loops.get? loop = some l)
      (moving : l.stage = .moving wait order) (same : wait.call = call)

/-- Whoever gives an identity up did so before, or passes it to the directory now. -/
theorem givesUp_course (course : Course s event turn) {call : Nat} (givesUp : GivesUp turn.1 call) :
    GivesUp s call ∨ ∃ passed, .call call (.unregister passed) ∈ turn.2 := by
  cases givesUp with
  | @loop loop l wait order found moving same =>
    obtain ⟨m, before, stage⟩ | reached := stage_course course found
    · exact .inl (.loop before (stage.trans moving) same)
    · rw [moving] at reached
      cases reached with
      | rests free => cases free
      | moves asked => exact .inr ⟨_, same ▸ asked⟩
  | @job job wait revoking same =>
    -- The job has been revoking before, unless it is the one that this step sets to work.
    have set : ∀ {other : Nat} {work : Work},
        (s.jobs.set other work).get? job = some (.revoking wait) →
        work = .revoking wait ∨ GivesUp s call := by
      intro other work found
      rcases Table.of_get?_set found with ⟨-, isWork⟩ | ⟨-, before⟩
      · exact .inl isWork.symm
      · exact .inr (.job before same)
    have erased : ∀ {other : Nat}, (s.jobs.erase other).get? job = some (.revoking wait) →
        GivesUp s call := fun found => .job (Table.of_get?_erase found).2 same
    cases course with
    | unregisters live =>
      obtain isWork | before := set revoking
      · cases isWork
        rw [← same]
        exact .inr ⟨_, List.mem_singleton.mpr rfl⟩
      · exact .inl before
    | dials | clears | applies | cleared | revokes | stops | asks =>
      exact .inl ((set revoking).resolve_left nofun)
    | undialed | adopts | forgets | unregistersInVain | revokesAtLast | stopsAtOnce | stopped
    | asksInVain | learns | abandons | issues => exact .inl (erased revoking)
    | _ => exact .inl (.job revoking same)

theorem givesUp_of_revokes (revokes : Revokes s event) :
    ∃ call reply, s.heard? event = some (call, reply) ∧ GivesUp s call := by
  cases revokes with
  | loop hears moving =>
    obtain ⟨found, wait, waits, heard⟩ := loopHears?_spec hears
    rw [moving] at waits
    cases waits
    exact ⟨_, _, heard, .loop found moving rfl⟩
  | job hears =>
    obtain ⟨wait, waits, heard⟩ := heard?_of_jobHears? hears
    cases waits
    exact ⟨_, _, heard, .job (jobHears?_spec hears) rfl⟩

/-! ### A whole run -/

theorem givesUp_run {call : Nat} (events : List Event) (givesUp : GivesUp (s.run events).1 call) :
    GivesUp s call ∨ ∃ before ask after passed, events = before ++ ask :: after ∧
      .call call (.unregister passed) ∈ ((s.run before).1.step ask).2 := by
  induction events generalizing s with
  | nil => exact .inl givesUp
  | cons event rest ih =>
    obtain later | ⟨before, ask, after, passed, rfl, asked⟩ := ih givesUp
    -- Somebody waits when the rest begins, since the first step or since before.
    · obtain first | ⟨passed, now⟩ := givesUp_course (step_course s event) later
      · exact .inl first
      · exact .inr ⟨[], event, rest, passed, rfl, now⟩
    · exact .inr ⟨event :: before, ask, after, passed, rfl, asked⟩

/-- A live identity at the end of a run is the last that was taken on, or was there before. -/
theorem live_run {dropped : Identity} (events : List Event)
    (live : (s.run events).1.live? = some dropped) :
    (s.taken events).getLast?.or s.live? = some dropped := by
  induction events generalizing s with
  | nil => exact live
  | cons event rest ih =>
    rw [run_cons] at live
    have later := ih live
    rw [taken, List.getLast?_append]
    -- Whatever is taken on later counts; only then does the first step matter.
    cases last : ((s.step event).1.taken rest).getLast? with
    | some latest =>
      rw [last] at later
      exact later
    | none =>
      rw [last, Option.none_or] at later
      cases passes_course (step_course s event) with
      | takes took holds =>
        have same := (Option.filter_eq_some_iff.mp later).1
        rw [holds] at same
        simpa [took] using same
      | keeps took same =>
        rw [live?, same, ← live?] at later
        simpa [took] using later
      | revokes took gone =>
        have dead : (s.step event).1.live? = none := by rw [live?, gone, ← live?_revoke s]; rfl
        rw [dead] at later
        cases later
      | forgets took gone =>
        rw [live?, gone] at later
        cases later

theorem eq_passed_iff_of_live {passed dropped : Identity} (events : List Event)
    (asking : s.live? = some passed) (live : (s.run events).1.live? = some dropped) :
    dropped = (s.taken events).getLastD passed ∧
      (dropped = passed ↔
        ∀ latest, (s.taken events).getLast? = some latest → latest = passed) := by
  have last := live_run events live
  rw [asking] at last
  rw [List.getLastD_eq_getLast?]
  generalize (s.taken events).getLast? = latest at last ⊢
  cases latest with
  | none =>
    obtain rfl : passed = dropped := by simpa using last
    exact ⟨rfl, by simp⟩
  | some identity =>
    obtain rfl : identity = dropped := by simpa using last
    exact ⟨rfl, by simp⟩

/-- In every run, and for every step that gives the identity up while it is live: the identity that
is dropped is the last that was taken on since somebody passed one to the directory, as the call
that is answered now. It is the identity that was passed just when no other was taken on last. -/
theorem dropped_eq_passed_iff (options : KeepAliveOptions) (world : Surroundings)
    (events : List Event) (event : Event) (dropped : Identity)
    (revokes : Revokes ((fresh options world).run events).1 event)
    (live : ((fresh options world).run events).1.live? = some dropped) :
    (((fresh options world).run events).1.step event).1.identity = some dropped.revoked ∧
      ∃ before ask between call passed reply, events = before ++ ask :: between ∧
        .call call (.unregister passed) ∈ (((fresh options world).run before).1.step ask).2 ∧
        ((fresh options world).run events).1.heard? event = some (call, reply) ∧
        dropped = (((fresh options world).run (before ++ [ask])).1.taken between).getLastD passed ∧
        (dropped = passed ↔
          ∀ latest, (((fresh options world).run (before ++ [ask])).1.taken between).getLast? =
            some latest → latest = passed) := by
  have held : ((fresh options world).run events).1.identity = some dropped :=
    (Option.filter_eq_some_iff.mp live).1
  refine ⟨?_, ?_⟩
  · rw [(revoke_of_revokes revokes).2, held]
    rfl
  · obtain ⟨call, reply, heard, givesUp⟩ := givesUp_of_revokes revokes
    obtain fromStart | ⟨before, ask, between, passed, rfl, asked⟩ := givesUp_run events givesUp
    -- A session that has just been made waits for nothing.
    · cases fromStart with
      | job revoking => cases revoking
      | loop found => cases found
    · refine ⟨before, ask, between, call, passed, reply, rfl, asked, heard, ?_⟩
      -- The identity is still the one that was passed when its call has just been made.
      obtain ⟨begun, same⟩ := passed_course (step_course _ ask) asked
      have asking : ((fresh options world).run (before ++ [ask])).1.live? = some passed := by
        rw [run_concat, live?, same]
        exact begun
      have whole : ((fresh options world).run (before ++ ask :: between)).1 =
          (((fresh options world).run (before ++ [ask])).1.run between).1 := by
        rw [List.append_cons, run_append]
      exact eq_passed_iff_of_live between asking (whole ▸ live)

/-- The identities that are passed to the directory to be given up, in order. -/
def revocations (effects : List Effect) : List Identity :=
  effects.filterMap fun
    | .call _ (.unregister identity) => some identity
    | _ => none

/-- What `grant` hands out. -/
def granted (node : Int32) (secret : UInt64) : Identity := ⟨node, secret, "127.0.0.1:10000", 5⟩

/-- The directory has given the identity up. -/
def released (call : Nat) : Event := .answer call (.ok (.ack .done))

/-- The user gives the identity up while nothing else goes on. -/
def plainEnd : List Event := firstHeartbeat ++ [.answer 1 (command .nothing), .unregister 1]

theorem dropped_eq_passed_iff_of_plainEnd :
    Revokes ((fresh .standard stillWorld).run plainEnd).1 (released 2) ∧
      ((fresh .standard stillWorld).run plainEnd).1.live? = some (granted 7 1007) ∧
      (((fresh .standard stillWorld).run plainEnd).1.step (released 2)).1.identity =
        some (granted 7 1007).revoked ∧
      ∃ before ask between call passed reply, plainEnd = before ++ ask :: between ∧
        .call call (.unregister passed) ∈
          (((fresh .standard stillWorld).run before).1.step ask).2 ∧
        ((fresh .standard stillWorld).run plainEnd).1.heard? (released 2) = some (call, reply) ∧
        granted 7 1007 =
          (((fresh .standard stillWorld).run (before ++ [ask])).1.taken between).getLastD passed ∧
        (granted 7 1007 = passed ↔
          ∀ latest,
            (((fresh .standard stillWorld).run (before ++ [ask])).1.taken between).getLast? =
              some latest → latest = passed) := by
  have revokes : Revokes ((fresh .standard stillWorld).run plainEnd).1 (released 2) :=
    @Revokes.job _ _ 1 ⟨2, 15000⟩ (some (.ok (.ack .done))) rfl
  have live : ((fresh .standard stillWorld).run plainEnd).1.live? = some (granted 7 1007) := by
    decide
  exact ⟨revokes, live, dropped_eq_passed_iff _ _ _ _ _ revokes live⟩

/-- A loop registers again as number eight while number seven is being given up. -/
def overtaken : List Event :=
  firstHeartbeat ++ [.answer 1 (command .reconnect), .unregister 1, .answer 2 (grant 8 1008)]

/-- Number eight is dropped, and the directory was only told about number seven. -/
theorem dropped_other_than_passed :
    Revokes ((fresh .standard stillWorld).run overtaken).1 (released 3) ∧
      ((fresh .standard stillWorld).run overtaken).1.live? = some (granted 8 1008) ∧
      (((fresh .standard stillWorld).run overtaken).1.step (released 3)).1.identity =
        some (granted 8 1008).revoked ∧
      revocations ((fresh .standard stillWorld).run (overtaken ++ [released 3])).2 =
        [granted 7 1007] := by
  refine ⟨?_, by decide, by decide, by decide⟩
  exact @Revokes.job _ _ 1 ⟨3, 15000⟩ (some (.ok (.ack .done))) rfl

end ExchangeNode.Session
