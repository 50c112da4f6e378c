import ExchangeNode.Backoff
import Mathlib

/-!
# The wait in closed form

The wait is computed with shifts and products that stop at the largest number of milliseconds. None
of that shows in the result but the largest number itself: it is the doubled interval, bounded by
the longest wait and by that number.
-/

namespace ExchangeNode.Backoff

/-- The wait in milliseconds after a number of failures in a row: the interval without any, else the
interval doubled for each and bounded by the longest wait. -/
def waitAfter (interval longest failures : Nat) : Nat :=
  if failures = 0 then interval else min (interval * 2 ^ failures) longest

theorem millis_ofMillis (n : Nat) : (Duration.ofMillis n).millis = n := by
  simp only [Duration.ofMillis, Duration.millis]
  omega

theorem millis_ofSeconds (n : Nat) : (Duration.ofSeconds n).millis = n * 1000 := by
  simp only [Duration.ofSeconds, Duration.millis]
  omega

/-- From the 64th failure on the factor is cut off, but by then any interval is beyond bounds. -/
theorem largest_le_of_many {interval failures : Nat} (positive : 0 < interval)
    (many : 64 ≤ failures) : largest ≤ interval * 2 ^ failures := by
  calc largest ≤ 2 ^ 64 := by decide
    _ ≤ 2 ^ failures := Nat.pow_le_pow_right (by decide) many
    _ ≤ interval * 2 ^ failures := Nat.le_mul_of_pos_left _ positive

theorem toNat_word (d : Duration) : (word d).toNat = min d.millis largest := by
  have small : min d.millis largest < UInt64.size :=
    Nat.lt_of_le_of_lt (Nat.min_le_right _ _) (by decide)
  rw [word, UInt64.toNat_ofNat_of_lt' small]

theorem toNat_product (a b : UInt64) : (product a b).toNat = min (a.toNat * b.toNat) largest := by
  rw [product]
  split
  next fits =>
    have small : a.toNat * b.toNat < 2 ^ 64 := Nat.lt_of_le_of_lt fits (by decide)
    rw [UInt64.toNat_mul, Nat.mod_eq_of_lt small, Nat.min_eq_left fits]
  next beyond =>
    rw [Nat.min_eq_right (Nat.le_of_not_le beyond)]
    decide

/-- As long as the factor is computed by a shift, no bit of it is lost. -/
theorem toNat_shift {failures : UInt32} (few : failures < 64) :
    ((1 : UInt64) <<< failures.toUInt64).toNat = 2 ^ failures.toNat := by
  have few : failures.toNat < 64 := UInt32.lt_iff_toNat_lt.mp few
  have small : 2 ^ failures.toNat < 2 ^ 64 := Nat.pow_lt_pow_right (by decide) few
  rw [UInt64.toNat_shiftLeft, UInt32.toNat_toUInt64, Nat.mod_eq_of_lt few, UInt64.toNat_one,
    Nat.one_shiftLeft, Nat.mod_eq_of_lt small]

theorem capped_eq (b : Backoff) (interval : Duration) (failures : UInt32) :
    (b.capped interval failures).toNat =
      min (min (interval.millis * 2 ^ failures.toNat) b.longest.millis) largest := by
  have bounded : min (min interval.millis largest *
      (if failures < 64 then 1 <<< failures.toUInt64 else UInt64.ofNat largest).toNat) largest =
        min (interval.millis * 2 ^ failures.toNat) largest := by
    rcases Nat.eq_zero_or_pos interval.millis with none | positive
    · simp [none]
    split
    next few =>
      rw [toNat_shift few]
      by_cases small : interval.millis ≤ largest
      · rw [Nat.min_eq_left small]
      -- Cut off or not, an interval beyond the largest number stays beyond it.
      · have grows : ∀ n, largest ≤ n → largest ≤ n * 2 ^ failures.toNat :=
          fun n beyond => Nat.le_trans beyond (Nat.le_mul_of_pos_right n (by positivity))
        have large : largest ≤ interval.millis := by omega
        rw [Nat.min_eq_right large, Nat.min_eq_right (grows _ (Nat.le_refl _)),
          Nat.min_eq_right (grows _ large)]
    next many =>
      have atLeast : 64 ≤ failures.toNat := by
        have reached := UInt32.not_lt.mp many
        simpa using UInt32.le_iff_toNat_le.mp reached
      have reaches : largest ≤ min interval.millis largest * (UInt64.ofNat largest).toNat :=
        Nat.le_mul_of_pos_left _ (Nat.lt_min.mpr ⟨positive, by decide⟩)
      rw [Nat.min_eq_right reaches, Nat.min_eq_right (largest_le_of_many positive atLeast)]
  simp only [capped, UInt64.toNat_min, toNat_product, toNat_word, bounded]
  omega

theorem delay_of_still {b : Backoff} (still : b.jitter ≤ 0.0) {failures : UInt32}
    (failed : 0 < failures) (interval : Duration) (random : Float) :
    b.delay interval failures random = .ofMillis (b.capped interval failures).toNat := by
  have some : failures ≠ 0 := fun none => UInt32.lt_irrefl _ (none ▸ failed)
  rw [delay, if_neg some, if_pos still]

/-- From then on further failures make no difference. -/
theorem waitAfter_of_many {interval failures : Nat} (positive : 0 < interval) (many : 64 ≤ failures)
    (longest : Nat) : min (waitAfter interval longest failures) largest = min longest largest := by
  have beyond := largest_le_of_many positive many
  simp only [waitAfter]
  rw [if_neg (by omega)]
  omega

/-- Without jitter the wait is the documented one, in as far as 64 bits hold it. An interval fits in
any case: the directory gives it in 32 bits. -/
theorem millis_delay {b : Backoff} (still : b.jitter ≤ 0.0) {interval : Duration}
    (fits : interval.millis ≤ largest) (failures : UInt32) (random : Float) :
    (b.delay interval failures random).millis =
      min (waitAfter interval.millis b.longest.millis failures.toNat) largest := by
  rw [waitAfter]
  by_cases none : failures = 0
  · simp [delay, none, Nat.min_eq_left fits]
  · have some : failures.toNat ≠ 0 := fun zero => none (UInt32.toNat_inj.mp zero)
    have failed : 0 < failures := UInt32.lt_iff_toNat_lt.mpr (Nat.pos_of_ne_zero some)
    rw [if_neg some, delay_of_still still failed, millis_ofMillis, capped_eq]

/-- The wait after failures is the one that numbers without bounds give: the interval, doubled for
each failure, but no more than the longest wait and than 64 bits hold. Nothing is lost on the way,
however long the two times and however many the failures. -/
theorem delay_eq_doubled {b : Backoff} (still : b.jitter ≤ 0.0) {failures : UInt32}
    (failed : 0 < failures) (interval : Duration) (random : Float) :
    b.delay interval failures random =
      .ofMillis (min (min (interval.millis * 2 ^ failures.toNat) b.longest.millis)
        (2 ^ 64 - 1)) := by
  rw [delay_of_still still failed, capped_eq]
  rfl

/-- Where the shift is given up, one millisecond has become more than a word holds. -/
theorem delay_eq_doubled_at_width :
    let b : Backoff := ⟨.ofSeconds 18446744073709551615, 0.0⟩
    b.jitter ≤ 0.0 ∧ 0 < (64 : UInt32) ∧
      b.delay (.ofMillis 1) 64 0.5 = .ofMillis 18446744073709551615 :=
  ⟨by decide, by decide, delay_eq_doubled (by decide) (by decide) (.ofMillis 1) 0.5⟩

/-! ### Growth -/

section

variable (b : Backoff) (interval : Duration)

theorem capped_mono {fewer more : UInt32} (le : fewer ≤ more) :
    (b.capped interval fewer).toNat ≤ (b.capped interval more).toNat := by
  have grows : interval.millis * 2 ^ fewer.toNat ≤ interval.millis * 2 ^ more.toNat :=
    Nat.mul_le_mul_left _ (Nat.pow_le_pow_right (by decide) (UInt32.le_iff_toNat_le.mp le))
  rw [capped_eq, capped_eq]
  omega

theorem capped_le_longest (failures : UInt32) :
    (b.capped interval failures).toNat ≤ b.longest.millis := by
  rw [capped_eq]
  omega

variable {b interval}

/-- An interval within the bounds is not shortened by them. -/
theorem le_capped (fits : interval.millis ≤ largest) (within : interval.millis ≤ b.longest.millis)
    (failures : UInt32) : interval.millis ≤ (b.capped interval failures).toNat := by
  have grows : interval.millis ≤ interval.millis * 2 ^ failures.toNat :=
    Nat.le_mul_of_pos_right _ (by positivity)
  rw [capped_eq]
  omega

end

end ExchangeNode.Backoff
