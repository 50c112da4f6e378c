import ExchangeNode.Proofs.Session.Tally

/-!
# Whether failures slow a node down

Without failures a node waits for the interval that its directory asked for, after failures for the
doubled interval, bounded by the longest wait that its user allows. Neither of the two knows the
other. As long as the interval is the shorter one, a failing directory hears from the node at most
as often as a healthy one. Where it is longer than the longest wait, each failure brings the next
heartbeat forward instead.
-/

namespace ExchangeNode.Session

/-- How long a session waits with a heartbeat after some failures, in nanoseconds. -/
def waited (options : KeepAliveOptions) (world : Surroundings) (identity : Identity)
    (failures : UInt32) (random : Float) : Nat :=
  ((fresh options world).backoff.delay (interval identity) failures random).nanoseconds

variable {options : KeepAliveOptions}

theorem waited_zero (options : KeepAliveOptions) (world : Surroundings) (identity : Identity)
    (random : Float) :
    waited options world identity 0 random = (interval identity).millis * 1_000_000 := by
  have plain : waited options world identity 0 random = (interval identity).nanoseconds :=
    congrArg Duration.nanoseconds (if_pos rfl)
  rw [plain, millis_interval]
  simp only [interval, Duration.ofSeconds]
  omega

theorem waited_of_failed (still : options.jitter ≤ 0.0) (world : Surroundings)
    (identity : Identity) {failures : UInt32} (failed : 0 < failures) (random : Float) :
    waited options world identity failures random =
      ((fresh options world).backoff.capped (interval identity) failures).toNat * 1_000_000 := by
  have quiet : (fresh options world).backoff.jitter ≤ 0.0 := still
  rw [waited, Backoff.delay_of_still quiet failed]
  rfl

/-- Without jitter a node waits longer the more failures it has counted, or just as long. The wait
without any fits into this row if the interval is no longer than the longest wait; if it is, every
wait after a failure is shorter than the one without. -/
theorem waited_grows (still : options.jitter ≤ 0.0) (world : Surroundings) (identity : Identity)
    (random : UInt32 → Float) :
    let wait (failures : UInt32) := waited options world identity failures (random failures)
    let seconds := (max 1 identity.heartbeatSeconds.toInt).toNat
    (seconds ≤ options.longestBackoffSeconds.toNat →
      ∀ fewer more, fewer ≤ more → wait fewer ≤ wait more) ∧
    (∀ fewer more, 0 < fewer → fewer ≤ more → wait fewer ≤ wait more) ∧
    (options.longestBackoffSeconds.toNat < seconds →
      ∀ failures, 0 < failures → wait failures < wait 0) := by
  intro wait seconds
  have begins : wait 0 = (interval identity).millis * 1_000_000 := waited_zero ..
  have goesOn {failures : UInt32} (failed : 0 < failures) :
      wait failures =
        ((fresh options world).backoff.capped (interval identity) failures).toNat * 1_000_000 :=
    waited_of_failed still world identity failed _
  have amongFailures : ∀ fewer more, 0 < fewer → fewer ≤ more → wait fewer ≤ wait more := by
    intro fewer more failed le
    rw [goesOn failed, goesOn (UInt32.lt_of_lt_of_le failed le)]
    exact Nat.mul_le_mul_right _ (Backoff.capped_mono _ _ le)
  refine ⟨fun within fewer more le => ?_, amongFailures, fun beyond failures failed => ?_⟩
  · by_cases none : fewer = 0
    · rw [none, begins]
      by_cases noneYet : more = 0
      · rw [noneYet, begins]
      · have bounded : (interval identity).millis ≤ (fresh options world).backoff.longest.millis := by
          rw [millis_interval, millis_longest]
          exact Nat.mul_le_mul_right _ within
        rw [goesOn (UInt32.pos_iff_ne_zero.mpr noneYet)]
        exact Nat.mul_le_mul_right _ (Backoff.le_capped (millis_interval_le _) bounded more)
    · exact amongFailures fewer more (UInt32.pos_iff_ne_zero.mpr none) le
  · have cut := Backoff.capped_le_longest (fresh options world).backoff (interval identity) failures
    rw [millis_longest] at cut
    rw [begins, goesOn failed, millis_interval]
    omega

/-- Five seconds, doubled up to five minutes. -/
theorem waited_grows_steadily :
    let identity : Identity := ⟨7, 1007, "127.0.0.1:10000", 5⟩
    let wait (failures : UInt32) := waited steady stillWorld identity failures 0.5
    steady.jitter ≤ 0.0 ∧ 5 ≤ steady.longestBackoffSeconds.toNat ∧
      wait 0 ≤ wait 1 ∧ wait 1 ≤ wait 64 ∧ wait 64 = 300_000_000_000 := by
  intro identity wait
  have still : steady.jitter ≤ 0.0 := by decide
  obtain ⟨grows, -, -⟩ := waited_grows still stillWorld identity fun _ => 0.5
  have within := grows (by decide)
  exact ⟨still, by decide, within 0 1 (by decide), within 1 64 (by decide), by decide⟩

/-- Where the longest wait is three seconds and the interval five, a failure brings the next
heartbeat forward. -/
theorem failure_brings_heartbeat_forward :
    let options : KeepAliveOptions := { steady with longestBackoffSeconds := 3 }
    let identity : Identity := ⟨7, 1007, "127.0.0.1:10000", 5⟩
    let wait (failures : UInt32) := waited options stillWorld identity failures 0.5
    options.jitter ≤ 0.0 ∧ wait 0 = 5_000_000_000 ∧ wait 1 = 3_000_000_000 ∧
      ¬ ∀ fewer more, fewer ≤ more → wait fewer ≤ wait more :=
  ⟨by decide, by decide, by decide, fun grows => absurd (grows 0 1 (by decide)) (by decide)⟩

end ExchangeNode.Session
