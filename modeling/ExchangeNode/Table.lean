/-!
# Tables of numbered things

Under each number a table holds at most one value. Setting a value puts it last, so the entries
stand in the order in which they were last set. What is found under a key is what stands there, also
where the keys are no numbers.
-/

namespace ExchangeNode

theorem mem_of_lookup {κ α : Type} [BEq κ] [LawfulBEq κ] {entries : List (κ × α)} {key : κ} {a : α}
    (found : entries.lookup key = some a) : (key, a) ∈ entries := by
  obtain ⟨before, after, rfl, -⟩ := List.lookup_eq_some_iff.mp found
  exact List.mem_append_right before List.mem_cons_self

/-- Where no two entries have the same key, an entry is found under its key. -/
theorem lookup_of_mem {κ α : Type} [BEq κ] [LawfulBEq κ] {entries : List (κ × α)}
    (distinct : (entries.map (·.1)).Nodup) {key : κ} {a : α} (member : (key, a) ∈ entries) :
    entries.lookup key = some a := by
  obtain ⟨before, after, rfl⟩ := List.append_of_mem member
  rw [List.map_append, List.nodup_append] at distinct
  refine List.lookup_eq_some_iff.mpr ⟨before, after, rfl, fun entry earlier => ?_⟩
  have different := distinct.2.2 entry.1 (List.mem_map_of_mem earlier) key List.mem_cons_self
  exact bne_iff_ne.mpr different.symm

structure Table (α : Type) where
  entries : List (Nat × α)
  distinct : (entries.map (·.1)).Nodup
  deriving DecidableEq, Repr

namespace Table

variable {α : Type}

def empty : Table α := ⟨[], List.nodup_nil⟩

instance : Inhabited (Table α) := ⟨empty⟩

def get? (t : Table α) (key : Nat) : Option α := t.entries.lookup key

theorem distinct_filter {entries : List (Nat × α)} (distinct : (entries.map (·.1)).Nodup)
    (key : Nat) : ((entries.filter fun entry => entry.1 ≠ key).map (·.1)).Nodup :=
  distinct.sublist (List.filter_sublist.map _)

def erase (t : Table α) (key : Nat) : Table α :=
  ⟨t.entries.filter fun entry => entry.1 ≠ key, distinct_filter t.distinct key⟩

theorem distinct_concat {entries : List (Nat × α)} (distinct : (entries.map (·.1)).Nodup)
    (key : Nat) (a : α) :
    (((entries.filter fun entry => entry.1 ≠ key) ++ [(key, a)]).map (·.1)).Nodup := by
  rw [List.map_append, List.nodup_append]
  refine ⟨distinct_filter distinct key, by simp, ?_⟩
  intro other member same
  obtain ⟨entry, kept, rfl⟩ := List.mem_map.mp member
  grind

def set (t : Table α) (key : Nat) (a : α) : Table α :=
  ⟨(t.erase key).entries ++ [(key, a)], distinct_concat t.distinct key a⟩

def contains (t : Table α) (key : Nat) : Bool := (t.get? key).isSome

/-- Change the value under a number, if there is one. -/
def modify (t : Table α) (key : Nat) (f : α → α) : Table α :=
  ⟨t.entries.map fun entry => if entry.1 = key then (entry.1, f entry.2) else entry, by
    have same : ∀ entry : Nat × α,
        (if entry.1 = key then (entry.1, f entry.2) else entry).1 = entry.1 := by grind
    simpa [List.map_map, Function.comp_def, same] using t.distinct⟩

@[simp] theorem get?_empty (key : Nat) : (empty : Table α).get? key = none := rfl

theorem lookup_filter (entries : List (Nat × α)) (key other : Nat) :
    (entries.filter fun entry => entry.1 ≠ key).lookup other =
      if other = key then none else entries.lookup other := by
  induction entries with
  | nil => simp
  | cons entry rest ih =>
    obtain ⟨k, a⟩ := entry
    by_cases erased : k = key
    · rw [List.filter_cons_of_neg (by simpa using erased), ih, List.lookup_cons, erased]
      by_cases same : other = key
      · simp [same]
      · simp [same, beq_false_of_ne same]
    · rw [List.filter_cons_of_pos (by simpa using erased), List.lookup_cons, List.lookup_cons, ih]
      by_cases same : other = k
      · simp [same, erased]
      · simp [beq_false_of_ne same]

@[simp] theorem get?_erase (t : Table α) (key other : Nat) :
    (t.erase key).get? other = if other = key then none else t.get? other :=
  lookup_filter t.entries key other

@[simp] theorem get?_set (t : Table α) (key other : Nat) (a : α) :
    (t.set key a).get? other = if other = key then some a else t.get? other := by
  simp only [get?, set, erase, List.lookup_append, lookup_filter, List.lookup_cons]
  by_cases same : other = key
  · simp [same]
  · simp [same, beq_false_of_ne same]

/-- A value that is found after an erasure was there before, under another number. -/
theorem of_get?_erase {t : Table α} {key other : Nat} {a : α}
    (found : (t.erase key).get? other = some a) : other ≠ key ∧ t.get? other = some a := by
  rw [get?_erase] at found
  split at found
  · cases found
  next different => exact ⟨different, found⟩

/-- A value that is found after a change is the new one, or was there before under another number. -/
theorem of_get?_set {t : Table α} {key other : Nat} {a b : α}
    (found : (t.set key a).get? other = some b) :
    (other = key ∧ b = a) ∨ (other ≠ key ∧ t.get? other = some b) := by
  rw [get?_set] at found
  split at found
  next same => exact .inl ⟨same, (Option.some.inj found).symm⟩
  next different => exact .inr ⟨different, found⟩

@[simp] theorem get?_modify (t : Table α) (key other : Nat) (f : α → α) :
    (t.modify key f).get? other = if other = key then (t.get? other).map f else t.get? other := by
  simp only [get?, modify]
  induction t.entries with
  | nil => simp
  | cons entry rest ih =>
    obtain ⟨k, a⟩ := entry
    have keyed : (if k = key then (k, f a) else (k, a)) = (k, if k = key then f a else a) := by
      split <;> rfl
    rw [List.map_cons, keyed, List.lookup_cons, List.lookup_cons, ih]
    by_cases same : other = k
    · by_cases changed : k = key
      · simp [same, changed]
      · simp [same, changed]
    · simp [beq_false_of_ne same]

theorem get?_of_mem {t : Table α} {key : Nat} {a : α} (member : (key, a) ∈ t.entries) :
    t.get? key = some a :=
  lookup_of_mem t.distinct member

theorem mem_of_get? {t : Table α} {key : Nat} {a : α} (found : t.get? key = some a) :
    (key, a) ∈ t.entries :=
  mem_of_lookup found

end Table

end ExchangeNode
