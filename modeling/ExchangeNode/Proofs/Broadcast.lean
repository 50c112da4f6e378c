import ExchangeNode.Broadcast
import Mathlib.Data.List.Induction

/-!
# What a receiver gets of a broadcast

A receiver that keeps reading gets all values in order, but for those that it is told it has missed.
Wherever it has come to, it goes on with the next value, or it has fallen behind by more than is
kept and goes on at the oldest value kept. So it never misses one of the newest.
-/

namespace ExchangeNode.Broadcast

variable {α : Type} {b : Broadcast α} {values : List α} {offset : Nat}

/-- All that was sent is kept, up to the capacity. -/
def Trim (b : Broadcast α) : Prop := b.kept.length = min b.sent capacity

/-- The broadcast after all values have been sent, in order. -/
def sendAll (b : Broadcast α) (values : List α) : Broadcast α := values.foldl send b

theorem trim_empty : Trim (empty : Broadcast α) := rfl

theorem trim_send (trim : Trim b) (a : α) : Trim (b.send a) := by
  simp only [Trim, send, List.length_take, List.length_cons] at trim ⊢
  omega

theorem sendAll_concat (b : Broadcast α) (values : List α) (a : α) :
    b.sendAll (values ++ [a]) = (b.sendAll values).send a := by
  rw [sendAll, List.foldl_append]
  rfl

theorem trim_sendAll (trim : Trim b) (values : List α) : Trim (b.sendAll values) := by
  induction values using List.reverseRecOn with
  | nil => exact trim
  | append_singleton values a ih =>
    rw [sendAll_concat]
    exact trim_send ih a

theorem sent_sendAll (b : Broadcast α) (values : List α) :
    (b.sendAll values).sent = b.sent + values.length := by
  induction values using List.reverseRecOn with
  | nil => rfl
  | append_singleton values a ih =>
    rw [sendAll_concat, send, ih, List.length_append, List.length_singleton, Nat.add_assoc]

theorem kept_sendAll (trim : Trim b) (values : List α) :
    (b.sendAll values).kept = (values.reverse ++ b.kept).take capacity := by
  induction values using List.reverseRecOn with
  | nil =>
    have short : b.kept.length ≤ capacity := trim ▸ Nat.min_le_right _ _
    exact (List.take_of_length_le short).symm
  | append_singleton values a ih =>
    rw [sendAll_concat, send, ih, List.reverse_concat, List.cons_append, capacity,
      List.take_succ_cons, List.take_succ_cons, List.take_take]
    rfl

/-- What is kept of the values sent, counted from the latest. -/
theorem getElem?_kept_sendAll (trim : Trim b) (within : offset < values.length)
    (late : values.length ≤ offset + capacity) :
    (b.sendAll values).kept[values.length - 1 - offset]? = values[offset]? := by
  have recent : values.length - 1 - offset < values.reverse.length := by
    rw [List.length_reverse]
    omega
  rw [kept_sendAll trim, List.getElem?_take_of_lt (by omega), List.getElem?_append_left recent,
    List.getElem?_reverse (by omega)]
  congr 1
  omega

/-- A receiver that has come to a position goes on with the next value, unless it has caught up. If
it has fallen too far behind, it goes on where as many values as are kept are left to read. -/
inductive Receives (b : Broadcast α) (values : List α) (offset : Nat) :
    Option (Reception α × Nat) → Prop where
  | nothing (caughtUp : offset = values.length) : Receives b values offset none
  | value {a : α} (next : values[offset]? = some a) (late : values.length ≤ offset + capacity) :
      Receives b values offset (some (.value a, b.sent + (offset + 1)))
  | missed {later : Nat} (behind : offset < later) (oldest : later + capacity = values.length) :
      Receives b values offset (some (.missed (later - offset), b.sent + later))

theorem receive_sendAll (trim : Trim b) (within : offset ≤ values.length) :
    Receives b values offset ((b.sendAll values).receive (b.sent + offset)) := by
  have kept := trim_sendAll trim values
  rw [Trim, sent_sendAll] at kept
  simp only [receive, sent_sendAll, kept]
  split
  -- The receiver has fallen behind, so more has been sent than is kept.
  next behind =>
    have oldest : b.sent + values.length - min (b.sent + values.length) capacity =
        b.sent + (values.length - capacity) := by omega
    have skipped : b.sent + values.length - min (b.sent + values.length) capacity -
        (b.sent + offset) = values.length - capacity - offset := by omega
    rw [skipped, oldest]
    exact .missed (by omega) (by omega)
  next recent =>
    split
    next unread =>
      have index : b.sent + values.length - 1 - (b.sent + offset) = values.length - 1 - offset := by
        omega
      have bound : offset < values.length := by omega
      have late : values.length ≤ offset + capacity := by omega
      rw [index, getElem?_kept_sendAll trim bound late, List.getElem?_eq_getElem bound]
      exact .value (List.getElem?_eq_getElem bound) late
    next read => exact .nothing (by omega)

end ExchangeNode.Broadcast
