/-!
# Waiting longer after each failure

Without failures the wait is the plain interval. Each failure in a row doubles it, up to the longest
wait. Jitter lengthens a doubled wait by a random part of itself, which the longest wait bounds too.
-/

namespace ExchangeNode

structure Duration where
  nanoseconds : Nat
  deriving DecidableEq, Repr, Inhabited

namespace Duration

def ofSeconds (n : Nat) : Duration := ⟨n * 1_000_000_000⟩

def ofMillis (n : Nat) : Duration := ⟨n * 1_000_000⟩

def seconds (d : Duration) : Nat := d.nanoseconds / 1_000_000_000

def millis (d : Duration) : Nat := d.nanoseconds / 1_000_000

end Duration

structure Backoff where
  longest : Duration
  /-- The part of a wait by which jitter may lengthen it. -/
  jitter : Float
  deriving DecidableEq, Repr

namespace Backoff

def standard : Backoff := ⟨.ofSeconds 300, 0.1⟩

instance : Inhabited Backoff := ⟨standard⟩

/-- Milliseconds are counted in words of 64 bits. -/
def largest : Nat := 0xffffffffffffffff

/-- The milliseconds of a duration, as far as they fit in a word. -/
def word (d : Duration) : UInt64 := .ofNat (min d.millis largest)

/-- The product of two words, or the largest word if it goes beyond that. -/
def product (a b : UInt64) : UInt64 :=
  if a.toNat * b.toNat ≤ largest then a * b else .ofNat largest

/-- The doubled and bounded wait in milliseconds, before jitter. -/
def capped (b : Backoff) (interval : Duration) (failures : UInt32) : UInt64 :=
  let factor := if failures < 64 then 1 <<< failures.toUInt64 else .ofNat largest
  min (product (word interval) factor) (word b.longest)

/-- The wait after a number of failures in a row, where `random` is between zero and one. -/
def delay (b : Backoff) (interval : Duration) (failures : UInt32) (random : Float) : Duration :=
  if failures = 0 then interval
  else if b.jitter ≤ 0.0 then .ofMillis (b.capped interval failures).toNat
  else
    let wait := (b.capped interval failures).toFloat * (1.0 + random * b.jitter)
    .ofMillis (min wait.toUInt64 (word b.longest)).toNat

end Backoff

end ExchangeNode
