import ExchangeNode.Proofs.Session.Sequential

/-!
# A session that is left to its loop

While no call of the user is under way and none begins, all that a session does for its directory is
done by the current loop, and that does one thing at a time. While the loop waits for an answer
nothing happens to the identity; nor does it while the loop is between two rounds.

`Goes` lists what can happen then. `exists_answer` follows a loop to the answer that it waits for, and
`rests_run` from there to the next heartbeat.
-/

namespace ExchangeNode.Session

/-- Whether the user begins a call that changes what a session holds. -/
def Event.intervenes : Event → Bool
  | .dial _ _ _ | .register _ _ _ | .unregister _ | .shutdown _ => true
  | _ => false

/-- The registrations that are asked for, in order. -/
def registrations (effects : List Effect) : List Registration :=
  effects.filterMap fun
    | .call _ (.register registration) => some registration
    | _ => none

theorem registrations_append (first more : List Effect) :
    registrations (first ++ more) = registrations first ++ registrations more :=
  List.filterMap_append

/-- Nothing is at work but the current loop and questions of the user. -/
structure Lone (s : Session) : Prop where
  asking : ∀ job work, s.jobs.get? job = some work → ∃ wait, work = .asking wait
  current : ∀ k, s.Alive k → s.current = some k

/-- No loop waits for the directory. -/
def Rests (s : Session) : Prop := ∀ k l, s.loops.get? k = some l → l.stage.wait? = none

/-- What a node is registered as stays the same. So does the number that ids are issued under,
provided `own`. -/
structure Keeps (own : Prop) (s t : Session) : Prop where
  identity : t.identity = s.identity
  directory : t.directory = s.directory
  registration : t.registration = s.registration
  seed : own → t.ids.node = s.ids.node

variable {s t u : Session} {event : Event} {turn : Turn} {k : Nat} {l : Liveness} {own : Prop}

theorem keeps_refl (own : Prop) (s : Session) : Keeps own s s := ⟨rfl, rfl, rfl, fun _ => rfl⟩

theorem Keeps.trans (first : Keeps own s t) (second : Keeps own t u) : Keeps own s u :=
  ⟨second.identity.trans first.identity, second.directory.trans first.directory,
    second.registration.trans first.registration, fun holds =>
      (second.seed holds).trans (first.seed holds)⟩

theorem Keeps.weaken {weak : Prop} (keeps : Keeps own s t) (implies : weak → own) :
    Keeps weak s t :=
  ⟨keeps.identity, keeps.directory, keeps.registration, keeps.seed ∘ implies⟩

/-- What a session keeps while its user leaves the generator alone, from one stretch of a run to the
next. -/
theorem Keeps.append {first rest : List Event}
    (kept : Keeps (∀ event ∈ first, event.reseeds = false) s t)
    (keeps : Keeps (∀ event ∈ rest, event.reseeds = false) t u) :
    Keeps (∀ event ∈ first ++ rest, event.reseeds = false) s u :=
  (kept.weaken fun own event member => own event (List.mem_append_left _ member)).trans
    (keeps.weaken fun own event member => own event (List.mem_append_right _ member))

theorem Keeps.cons {rest : List Event} (kept : Keeps (event.reseeds = false) s t)
    (keeps : Keeps (∀ event ∈ rest, event.reseeds = false) t u) :
    Keeps (∀ other ∈ event :: rest, other.reseeds = false) s u :=
  (kept.weaken fun own => own event List.mem_cons_self).trans
    (keeps.weaken fun own other member => own other (.tail _ member))

theorem Lone.not_job (lone : Lone s) {job : Nat} {work : Work} (found : s.jobs.get? job = some work)
    (other : ∀ wait, work ≠ .asking wait) : False := by
  obtain ⟨wait, isAsking⟩ := lone.asking job work found
  exact other wait isAsking

theorem Lone.eq_of_alive (lone : Lone s) {j : Nat} (left : s.Alive j) (other : s.Alive k) : j = k :=
  Option.some.inj ((lone.current j left).symm.trans (lone.current k other))

/-- A user who waits for calls to return before others begin leaves the session to its loop. -/
theorem lone_of_settled (settled : Settled s)
    (asking : ∀ job work, s.jobs.get? job = some work → ∃ wait, work = .asking wait) : Lone s where
  asking := asking
  current k left := by
    refine current_of_alive settled (fun job work found => ?_) left
    obtain ⟨wait, rfl⟩ := asking job work found
    exact nofun

theorem Lone.of_kept (lone : Lone s) (fewer : ∀ k, t.Alive k → s.Alive k)
    (current : t.current = s.current)
    (jobs : ∀ job work, t.jobs.get? job = some work →
      s.jobs.get? job = some work ∨ ∃ wait, work = .asking wait) : Lone t where
  asking job work found := (jobs job work found).elim (lone.asking job work) id
  current k left := current.trans (lone.current k (fewer k left))

/-- What can happen to a session that is left to its loop. -/
inductive Goes (s : Session) (event : Event) : Turn → Prop where
  /-- The loop is not concerned. -/
  | idles {after} (unheard : s.loopHears? event = none) (loops : after.1.loops = s.loops)
      (keeps : Keeps (event.reseeds = false) s after.1) (silent : heartbeats after.2 = [])
      (modest : registrations after.2 = []) : Goes s event after
  | sleeps {loop m} (found : s.loops.get? loop = some m) (starting : m.stage = .starting) :
      Goes s event (s.pause loop m, [])
  | beats {loop m wake after} (found : s.loops.get? loop = some m) (asleep : m.stage = .sleeping wake)
      (sent : heartbeats after.2 = [s.nextHeartbeat]) : Goes s event after
  | ends {loop m wake} (found : s.loops.get? loop = some m) (asleep : m.stage = .sleeping wake) :
      Goes s event (s.endLoop loop, [])
  | hears {loop m reply after} (hears : s.loopHears? event = some (loop, m, reply))
      (answered : after = s.loopAnswered loop m reply) : Goes s event after

theorem lone_course (lone : Lone s) (calm : event.intervenes = false) :
    Goes s event (s.step event) ∧ Lone (s.step event).1 := by
  have course := step_course s event
  -- No registration returns, so no loop begins.
  have fewer : ∀ k, (s.step event).1.Alive k → s.Alive k := by
    intro k left
    refine (alive_or_begins course left).resolve_right ?_
    rintro ⟨-, job, address, returned⟩
    obtain ⟨_, _, _, _, _, hears, -⟩ := adopts_of_returned course returned
    exact lone.not_job (jobHears?_spec hears) (by simp)
  have kept := @Lone.of_kept s (s.step event).1 lone fewer
  generalize turned : s.step event = turn at course kept ⊢
  have same : ∀ job work, s.jobs.get? job = some work →
      s.jobs.get? job = some work ∨ ∃ wait, work = .asking wait := fun _ _ found => .inl found
  have erased : ∀ other job work, (s.jobs.erase other).get? job = some work →
      s.jobs.get? job = some work ∨ ∃ wait, work = .asking wait :=
    fun _ _ _ found => .inl (Table.of_get?_erase found).2
  cases course with
  | dials | unregisters | unregistersInVain | stops | stopsAtOnce => cases calm
  -- A registration begins only with a call, and with the end of a call to dial.
  | clears applies | applies applies =>
    obtain rfl | ⟨-, dialing⟩ := applicant?_spec applies
    · cases calm
    · exact (lone.not_job dialing (by simp)).elim
  | undialed mine | cleared mine | stopped mine => exact (lone.not_job mine (by simp)).elim
  | adopts hears | forgets hears | revokes hears | revokesAtLast hears =>
    exact (lone.not_job (jobHears?_spec hears) (by simp)).elim
  | pauses hears | publishes hears | reconnects hears | renews hears | staysAsItIs hears
  | moves hears | movesAtOnce hears | defers hears | leaves hears =>
    exact ⟨.hears hears (turned.symm.trans (step_of_loopHears? hears)), kept rfl same⟩
  | starts found starting => exact ⟨.sleeps found starting, kept rfl same⟩
  | beats found asleep => exact ⟨.beats found asleep rfl, kept rfl same⟩
  | dies found asleep | heeds found _ asleep => exact ⟨.ends found asleep, kept rfl same⟩
  | misses may unheard => exact ⟨.idles unheard rfl (keeps_refl _ s) rfl rfl, kept rfl same⟩
  -- The loop is not concerned.
  | outside world isOutside =>
    cases event with
    | elapse | setClock | setRandom | setLoad =>
      exact ⟨.idles rfl rfl ⟨rfl, rfl, rfl, fun _ => rfl⟩ rfl rfl, kept rfl same⟩
    | _ => cases isOutside
  | asks =>
    refine ⟨.idles rfl rfl ⟨rfl, rfl, rfl, fun _ => rfl⟩ rfl rfl, kept rfl fun job work found => ?_⟩
    rcases Table.of_get?_set found with ⟨-, rfl⟩ | ⟨-, before⟩
    · exact .inr ⟨_, rfl⟩
    · exact .inl before
  | learns hears =>
    exact ⟨.idles (loopHears?_of_jobHears? hears) rfl ⟨rfl, rfl, rfl, fun _ => rfl⟩ rfl rfl,
      kept rfl (erased _)⟩
  | asksInVain | abandons =>
    exact ⟨.idles rfl rfl ⟨rfl, rfl, rfl, fun _ => rfl⟩ rfl rfl, kept rfl (erased _)⟩
  | issues ids _ _ node =>
    exact ⟨.idles rfl rfl ⟨rfl, rfl, rfl, fun _ => node⟩ rfl rfl, kept rfl (erased _)⟩
  | reseeds =>
    exact ⟨.idles rfl rfl ⟨rfl, rfl, rfl, by simp [Event.reseeds]⟩ rfl rfl, kept rfl same⟩
  | setsStatus | counts | releases | tracks | retires | locks | resets =>
    exact ⟨.idles rfl rfl ⟨rfl, rfl, rfl, fun _ => rfl⟩ rfl rfl, kept rfl same⟩

theorem lone_run {events : List Event} (lone : Lone s)
    (calm : ∀ event ∈ events, event.intervenes = false) : Lone (s.run events).1 := by
  induction events generalizing s with
  | nil => exact lone
  | cons event rest ih =>
    have first := (lone_course lone (calm event List.mem_cons_self)).2
    exact ih first fun next member => calm next (.tail _ member)

/-! ### Waiting for an answer -/

theorem asleep_of_heartbeat (course : Course s event turn) (sends : heartbeats turn.2 ≠ []) :
    ∃ loop m wake, s.loops.get? loop = some m ∧ m.stage = .sleeping wake := by
  cases course with
  | beats found asleep => exact ⟨_, _, _, found, asleep⟩
  | _ => exact absurd rfl sends

/-- A loop that waits hears the answer before the next heartbeat is sent, and until then everything
stays as it is. -/
theorem exists_answer {between : List Event} {next : Event} (lone : Lone s)
    (found : s.loops.get? k = some l) (waits : l.stage.wait?.isSome)
    (calm : ∀ event ∈ between, event.intervenes = false)
    (sends : heartbeats ((s.run between).1.step next).2 ≠ []) :
    ∃ heard answer rest reply, between = heard ++ answer :: rest ∧
      (s.run heard).1.loopHears? answer = some (k, l, reply) ∧ Lone (s.run heard).1 ∧
      Keeps (∀ event ∈ heard, event.reseeds = false) s (s.run heard).1 ∧
      registrations (s.run heard).2 = [] := by
  -- The loop is the only one, so whoever takes a turn is this loop, which waits.
  have awake : ∀ {s : Session} {loop m}, Lone s → s.loops.get? k = some l →
      s.loops.get? loop = some m → m.stage.wait?.isSome := by
    intro s loop m lone found other
    obtain rfl := lone.eq_of_alive (alive_of_get? other) (alive_of_get? found)
    rw [found] at other
    cases other
    exact waits
  induction between generalizing s with
  | nil =>
    obtain ⟨loop, m, wake, other, asleep⟩ := asleep_of_heartbeat (step_course s next) sends
    have waiting := awake lone found other
    rw [asleep] at waiting
    cases waiting
  | cons event rest ih =>
    obtain ⟨goes, after⟩ := lone_course lone (calm event List.mem_cons_self)
    rw [run_cons] at sends
    generalize turned : s.step event = turn at goes after sends
    cases goes with
    | idles unheard loops keeps silent modest =>
      obtain ⟨heard, answer, later, reply, rfl, hears, then_, kept, quiet⟩ :=
        ih after (loops ▸ found) (fun e member => calm e (.tail _ member)) sends
      refine ⟨event :: heard, answer, later, reply, rfl, ?_⟩
      rw [run_cons, turned]
      refine ⟨hears, then_, keeps.cons kept, ?_⟩
      rw [registrations_append, modest, quiet, List.append_nil]
    | sleeps other starting =>
      have waiting := awake lone found other
      rw [starting] at waiting
      cases waiting
    | beats other asleep | ends other asleep =>
      have waiting := awake lone found other
      rw [asleep] at waiting
      cases waiting
    | hears hears =>
      obtain ⟨other, -⟩ := loopHears?_spec hears
      obtain rfl := lone.eq_of_alive (alive_of_get? other) (alive_of_get? found)
      rw [found] at other
      cases other
      exact ⟨[], event, rest, _, rfl, hears, lone, keeps_refl _ s, rfl⟩

/-! ### Between two rounds -/

theorem rests_of_pause {m : Liveness} (only : ∀ j, s.Alive j → j = k) : Rests (s.pause k m) := by
  intro j n found
  simp only [pause] at found
  split at found
  · obtain ⟨-, rfl⟩ | ⟨different, before⟩ := Table.of_get?_set found
    · rfl
    · exact absurd (only j (alive_of_get? before)) different
  · obtain ⟨different, before⟩ := Table.of_get?_erase found
    exact absurd (only j (alive_of_get? before)) different

theorem rests_goes (rests : Rests s) (goes : Goes s event turn)
    (silent : heartbeats turn.2 = []) :
    Rests turn.1 ∧ Keeps (event.reseeds = false) s turn.1 ∧ registrations turn.2 = [] := by
  cases goes with
  | idles unheard loops keeps _ modest =>
    exact ⟨fun k l found => rests k l (loops ▸ found), keeps, modest⟩
  | @sleeps loop m found =>
    refine ⟨?_, ⟨rfl, rfl, rfl, fun _ => rfl⟩, rfl⟩
    intro k l after
    obtain ⟨m, before, same, -⟩ | ⟨-, free, -⟩ := stays_of_pause after
    · exact same ▸ rests k m before
    · exact free
  | beats found asleep sent =>
    rw [sent] at silent
    cases silent
  | ends found =>
    refine ⟨?_, ⟨rfl, rfl, rfl, fun _ => rfl⟩, rfl⟩
    exact fun k l after => rests k l (Table.of_get?_erase after).2
  | hears hears =>
    obtain ⟨found, wait, waits, -⟩ := loopHears?_spec hears
    rw [rests _ _ found] at waits
    cases waits

/-- Until the next heartbeat everything stays as it is. -/
theorem rests_run {events : List Event} (lone : Lone s) (rests : Rests s)
    (calm : ∀ event ∈ events, event.intervenes = false)
    (silent : heartbeats (s.run events).2 = []) :
    Keeps (∀ event ∈ events, event.reseeds = false) s (s.run events).1 ∧
      registrations (s.run events).2 = [] := by
  induction events generalizing s with
  | nil => exact ⟨keeps_refl _ s, rfl⟩
  | cons event rest ih =>
    rw [run_cons, heartbeats_append, List.append_eq_nil_iff] at silent
    obtain ⟨goes, after⟩ := lone_course lone (calm event List.mem_cons_self)
    obtain ⟨resting, keeps, modest⟩ := rests_goes rests goes silent.1
    obtain ⟨kept, quiet⟩ :=
      ih after resting (fun e member => calm e (.tail _ member)) silent.2
    rw [run_cons]
    refine ⟨keeps.cons kept, ?_⟩
    rw [registrations_append, modest, quiet, List.append_nil]

end ExchangeNode.Session
