import ExchangeNode.Table
import ExchangeNode.Toml.Reader

/-!
# What a document is made of

A TOML document is a table whose keys differ, and so is every table in it; nothing in it is null.
`read?_tabular` carries this from the tables that are being filled to the document that is read: a
key is added only where it is not in use, and a table is put back only in the place it was taken
from.
-/

namespace ExchangeNode

/-- A value with nothing null or garbled in it, and with no key twice in one table. -/
inductive Json.Tabular : Json → Prop
  | boolean (b : Bool) : Tabular (.boolean b)
  | integer (n : Int) : Tabular (.integer n)
  | real (x : Float) : Tabular (.real x)
  | string (s : String) : Tabular (.string s)
  | array {items : List Json} (each : ∀ item ∈ items, Tabular item) : Tabular (.array items)
  | object {members : List (String × Json)} (distinct : (members.map (·.1)).Nodup)
      (each : ∀ member ∈ members, Tabular member.2) : Tabular (.object members)

namespace Toml

variable {cs rest : List Char} {j : Json} {key : String} {node : Node} {path : List String}

/-! ### Tables being filled -/

theorem toJson_entries (entries : Entries) :
    entriesToJson entries = entries.map fun entry => (entry.1, entry.2.toJson) := by
  induction entries with
  | nil => rfl
  | cons entry rest ih => rw [entriesToJson, ih, List.map_cons]

theorem toJson_elements (elements : List Entries) :
    elementsToJson elements = elements.map fun entries => .object (entriesToJson entries) := by
  induction elements with
  | nil => rfl
  | cons entries rest ih => rw [elementsToJson, ih, List.map_cons]

/-- Entries under keys that differ, each of which stands for a value made of tables. -/
structure Entries.Tabular (entries : Entries) : Prop where
  distinct : (entries.map (·.1)).Nodup
  each : ∀ entry ∈ entries, entry.2.toJson.Tabular

variable {entries : Entries}

theorem tabular_object_iff : (Json.object (entriesToJson entries)).Tabular ↔ entries.Tabular := by
  rw [toJson_entries]
  constructor
  · intro tabular
    cases tabular with
    | object distinct each =>
      constructor
      · simpa [List.map_map, Function.comp_def] using distinct
      · exact fun entry member => each _ (List.mem_map_of_mem member)
  · rintro ⟨distinct, each⟩
    refine .object (by simpa [List.map_map, Function.comp_def] using distinct) ?_
    intro member found
    obtain ⟨entry, held, rfl⟩ := List.mem_map.mp found
    exact each entry held

theorem tabular_tables_iff {elements : List Entries} :
    (Node.tables elements).toJson.Tabular ↔ ∀ entries ∈ elements, entries.Tabular := by
  rw [Node.toJson, toJson_elements]
  constructor
  · intro tabular entries member
    cases tabular with
    | array each =>
      exact tabular_object_iff.mp (each _ (List.mem_reverse.mpr (List.mem_map_of_mem member)))
  · intro each
    refine .array fun item found => ?_
    obtain ⟨entries, member, rfl⟩ := List.mem_map.mp (List.mem_reverse.mp found)
    exact tabular_object_iff.mpr (each entries member)

theorem tabular_nil : Entries.Tabular [] := ⟨List.nodup_nil, nofun⟩

theorem tabular_of_lookup (tabular : entries.Tabular) (found : entries.lookup key = some node) :
    node.toJson.Tabular := tabular.each _ (mem_of_lookup found)

theorem tabular_set (tabular : entries.Tabular) (isTabular : node.toJson.Tabular) :
    (entries.set key node).Tabular := by
  rw [Entries.set]
  split
  · constructor
    · have same : ∀ entry : String × Node,
          (if entry.1 == key then (key, node) else entry).1 = entry.1 := by
        intro entry
        split
        · simp_all
        · rfl
      simp only [List.map_map, Function.comp_def, same]
      exact tabular.distinct
    · intro entry found
      obtain ⟨old, member, rfl⟩ := List.mem_map.mp found
      split
      · exact isTabular
      · exact tabular.each old member
  next unused =>
    constructor
    · rw [List.map_append, List.nodup_append]
      refine ⟨tabular.distinct, by simp, ?_⟩
      intro name used other isKey
      simp only [List.map_cons, List.map_nil, List.mem_singleton] at isKey
      rintro rfl
      subst isKey
      obtain ⟨entry, member, same⟩ := List.mem_map.mp used
      exact unused (List.any_eq_true.mpr ⟨entry, member, by simpa using same⟩)
    · intro entry found
      rcases List.mem_append.mp found with member | new
      · exact tabular.each entry member
      · rw [List.mem_singleton.mp new]
        exact isTabular

theorem tabular_erase (tabular : entries.Tabular) : (entries.erase key).Tabular where
  distinct := tabular.distinct.sublist (List.filter_sublist.map _)
  each entry found := tabular.each entry (List.mem_filter.mp found).1

/-- A change that keeps a table as it has to be. -/
def Keeps (change : Bool → Entries → Option Entries) : Prop :=
  ∀ dotted entries after, entries.Tabular → change dotted entries = some after → after.Tabular

/-- What is changed at the end of a path leaves the tables on the way as they have to be. -/
theorem tabular_descend {byKey : Bool} {change : Bool → Entries → Option Entries}
    (keeps : Keeps change) {dotted : Bool} {after : Entries} (tabular : entries.Tabular)
    (changed : entries.descend byKey change path dotted = some after) : after.Tabular := by
  induction path generalizing dotted entries after with
  | nil => exact keeps dotted entries after tabular changed
  | cons key path ih =>
    rw [Entries.descend] at changed
    split at changed
    next missing =>
      obtain ⟨inner, made, rfl⟩ := Option.map_eq_some_iff.mp changed
      exact tabular_set tabular (tabular_object_iff.mpr (ih tabular_nil made))
    next implied dotted inner found =>
      split at changed
      · cases changed
      · have before := tabular_object_iff.mp (tabular_of_lookup tabular found)
        obtain ⟨inner, made, rfl⟩ := Option.map_eq_some_iff.mp changed
        exact tabular_set tabular (tabular_object_iff.mpr (ih before made))
    next latest before found =>
      have each := tabular_tables_iff.mp (tabular_of_lookup tabular found)
      obtain ⟨latest, made, rfl⟩ := Option.map_eq_some_iff.mp changed
      refine tabular_set tabular (tabular_tables_iff.mpr ?_)
      intro entries member
      cases member with
      | head => exact ih (each _ List.mem_cons_self) made
      | tail _ earlier => exact each entries (List.mem_cons_of_mem _ earlier)
    next => cases changed

theorem tabular_enter {after : Entries} (tabular : entries.Tabular) (isTabular : j.Tabular)
    (entered : entries.enter path j = some after) : after.Tabular := by
  refine tabular_descend ?_ tabular entered
  intro dotted table after tabular changed
  simp only at changed
  split at changed
  · cases changed
  next free =>
    cases changed
    simp only [Bool.or_eq_true, not_or, Bool.not_eq_true] at free
    have unused : table.any (·.1 == path.getLastD "") = false := free.2
    have set : (table.set (path.getLastD "") (.value j)).Tabular := tabular_set tabular isTabular
    rwa [Entries.set, unused] at set

/-! ### Scalars -/

theorem tabular_of_ofNumeral {negative : Bool} {n : Decimal.Numeral}
    (read : ofNumeral? negative n = some j) : j.Tabular := by
  simp only [ofNumeral?] at read
  split at read
  · cases read
    exact .real _
  · split at read
    · cases read
    · cases read
      exact .real _

theorem tabular_of_special (read : special? cs = some (j, rest)) : j.Tabular := by
  simp only [special?] at read
  split at read
  · cases read
    exact .real _
  · cases read
    exact .real _
  · cases read

/-- A scalar that is read, with what follows it. -/
theorem tabular_of_map {scalar? : Option Json} {after : List Char}
    (each : ∀ j, scalar? = some j → j.Tabular)
    (read : scalar?.map (·, after) = some (j, rest)) : j.Tabular := by
  obtain ⟨_, found, same⟩ := Option.map_eq_some_iff.mp read
  cases same
  exact each j found

theorem tabular_of_float (read : float? cs = some (j, rest)) : j.Tabular := by
  simp only [float?] at read
  split at read
  · exact tabular_of_special read
  · split at read
    · split at read
      · exact tabular_of_map (fun _ => tabular_of_ofNumeral) read
      · exact tabular_of_map (fun _ => tabular_of_ofNumeral) read
    · obtain ⟨_, -, read⟩ := Option.bind_eq_some_iff.mp read
      exact tabular_of_map (fun _ => tabular_of_ofNumeral) read

theorem tabular_of_integerOf {negative : Bool} {base : Nat} {digits : List Char}
    (read : integerOf? negative base digits = some j) : j.Tabular := by
  simp only [integerOf?] at read
  split at read
  · split at read
    · cases read
      exact .integer _
    · cases read
  · split at read
    · cases read
      exact .integer _
    · cases read

theorem tabular_of_integer (read : integer? cs = some (j, rest)) : j.Tabular := by
  simp only [integer?] at read
  -- Three bases that are marked, and the decimal one.
  split at read
  · obtain ⟨_, -, read⟩ := Option.bind_eq_some_iff.mp read
    exact tabular_of_map (fun _ => tabular_of_integerOf) read
  · obtain ⟨_, -, read⟩ := Option.bind_eq_some_iff.mp read
    exact tabular_of_map (fun _ => tabular_of_integerOf) read
  · obtain ⟨_, -, read⟩ := Option.bind_eq_some_iff.mp read
    exact tabular_of_map (fun _ => tabular_of_integerOf) read
  · obtain ⟨_, -, read⟩ := Option.bind_eq_some_iff.mp read
    exact tabular_of_map (fun _ => tabular_of_integerOf) read

theorem tabular_of_moment (read : moment? cs = some (j, rest)) : j.Tabular := by
  obtain ⟨_, -, same⟩ := Option.map_eq_some_iff.mp read
  cases same
  refine .object (by simp) fun member found => ?_
  rw [List.mem_singleton.mp found]
  exact .string _

theorem tabular_of_scalar (read : scalar? cs = some (j, rest)) : j.Tabular := by
  rw [scalar?, Option.or_eq_some_iff, Option.or_eq_some_iff] at read
  obtain moment | ⟨-, float | ⟨-, integer⟩⟩ := read
  · exact tabular_of_moment moment
  · exact tabular_of_float float
  · exact tabular_of_integer integer

/-! ### Values -/

/-- The three readers of values call each other on less fuel. -/
theorem tabular_of_fuel (fuel : Nat) :
    (∀ depth cs j rest, value? fuel depth cs = some (j, rest) → j.Tabular) ∧
    (∀ depth cs items rest, items? fuel depth cs = some (items, rest) →
      ∀ item ∈ items, item.Tabular) ∧
    ∀ depth entries cs after rest, entries.Tabular →
      pairs? fuel depth entries cs = some (after, rest) → after.Tabular := by
  induction fuel with
  | zero => exact ⟨nofun, nofun, nofun⟩
  | succ fuel ih =>
    obtain ⟨value, items, pairs⟩ := ih
    refine ⟨?_, ?_, ?_⟩
    · intro depth cs j rest read
      unfold value? at read
      split at read
      · obtain ⟨_, -, same⟩ := Option.map_eq_some_iff.mp read
        cases same
        exact .string _
      · obtain ⟨_, -, same⟩ := Option.map_eq_some_iff.mp read
        cases same
        exact .string _
      · split at read
        · cases read
        · obtain ⟨⟨read, after⟩, found, same⟩ := Option.map_eq_some_iff.mp read
          cases same
          exact .array (items _ _ _ _ found)
      · split at read
        · cases read
        · dsimp only at read
          split at read
          · cases read
            exact tabular_object_iff.mpr tabular_nil
          · obtain ⟨⟨entries, after⟩, found, same⟩ := Option.bind_eq_some_iff.mp read
            cases same
            exact tabular_object_iff.mpr (pairs _ _ _ _ _ tabular_nil found)
      · cases read
        exact .boolean _
      · cases read
        exact .boolean _
      · exact tabular_of_scalar read
    · intro depth cs read rest found
      unfold items? at found
      split at found
      · cases found
        exact nofun
      · obtain ⟨⟨first, after⟩, isFirst, found⟩ := Option.bind_eq_some_iff.mp found
        have tabular := value _ _ _ _ isFirst
        simp only at found
        split at found
        · obtain ⟨⟨others, last⟩, more, same⟩ := Option.map_eq_some_iff.mp found
          cases same
          exact List.forall_mem_cons.mpr ⟨tabular, items _ _ _ _ more⟩
        · cases found
          exact List.forall_mem_singleton.mpr tabular
        · cases found
    · intro depth entries cs after rest tabular found
      unfold pairs? at found
      obtain ⟨⟨path, more⟩, -, found⟩ := Option.bind_eq_some_iff.mp found
      obtain ⟨more, -, found⟩ := Option.bind_eq_some_iff.mp found
      obtain ⟨⟨first, more⟩, isFirst, found⟩ := Option.bind_eq_some_iff.mp found
      obtain ⟨entered, enters, found⟩ := Option.bind_eq_some_iff.mp found
      have kept := tabular_enter tabular (value _ _ _ _ isFirst) enters
      split at found
      · exact pairs _ _ _ _ _ kept found
      · cases found
        exact kept
      · cases found

/-! ### Documents -/

/-- The tables of a document that is being read. -/
structure Document.Tabular (d : Document) : Prop where
  root : d.root.Tabular
  current : d.current.entries.Tabular

variable {d after : Document}

theorem tabular_finish {entries : Entries} (tabular : d.Tabular)
    (finished : d.finish? = some entries) : entries.Tabular := by
  simp only [Document.finish?] at finished
  have isTable : (Node.table false false d.current.entries).toJson.Tabular :=
    tabular_object_iff.mpr tabular.current
  split at finished
  · cases finished
    exact tabular.current
  · refine tabular_descend ?_ tabular.root finished
    intro dotted parent after before changed
    simp only at changed
    split at changed
    · split at changed
      · cases changed
        exact tabular_set before
          (tabular_tables_iff.mpr (List.forall_mem_singleton.mpr tabular.current))
      next elements found =>
        cases changed
        have each := tabular_tables_iff.mp (tabular_of_lookup before found)
        exact tabular_set before
          (tabular_tables_iff.mpr (List.forall_mem_cons.mpr ⟨tabular.current, each⟩))
      · cases changed
    · split at changed
      · cases changed
      · cases changed
        exact tabular_set before isTable

theorem tabular_find {entries : Entries} (tabular : entries.Tabular)
    (found : Document.find? path entries = some node) : node.toJson.Tabular := by
  induction path generalizing entries with
  | nil => cases found
  | cons key path ih =>
    cases path with
    | nil => exact tabular_of_lookup tabular found
    | cons next path =>
      simp only [Document.find?] at found
      split at found
      next inner isTable =>
        exact ih (tabular_object_iff.mp (tabular_of_lookup tabular isTable)) found
      next latest before isTables =>
        have each := tabular_tables_iff.mp (tabular_of_lookup tabular isTables)
        exact ih (each latest List.mem_cons_self) found
      · cases found

theorem tabular_beginTable (tabular : d.Tabular) (begun : d.beginTable path = some after) :
    after.Tabular := by
  obtain ⟨root, finished, begun⟩ := Option.bind_eq_some_iff.mp begun
  obtain ⟨cleared, taken, begun⟩ := Option.bind_eq_some_iff.mp begun
  have isRoot := tabular_finish tabular finished
  have isCleared : cleared.Tabular := by
    refine tabular_descend ?_ isRoot taken
    rintro dotted parent after before ⟨⟩
    exact tabular_erase before
  split at begun
  · cases begun
    exact ⟨isCleared, tabular_nil⟩
  next entries found =>
    cases begun
    exact ⟨isCleared, tabular_object_iff.mp (tabular_find isRoot found)⟩
  · cases begun

theorem tabular_beginElement (tabular : d.Tabular) (begun : d.beginElement path = some after) :
    after.Tabular := by
  obtain ⟨finished, isFinished, begun⟩ := Option.bind_eq_some_iff.mp begun
  obtain ⟨root, descended, begun⟩ := Option.bind_eq_some_iff.mp begun
  have isRoot : root.Tabular := by
    refine tabular_descend ?_ (tabular_finish tabular isFinished) descended
    rintro dotted parent after before ⟨⟩
    exact before
  split at begun
  · cases begun
    exact ⟨isRoot, tabular_nil⟩
  · cases begun
    exact ⟨isRoot, tabular_nil⟩
  · cases begun

theorem tabular_line (tabular : d.Tabular) (read : line? d cs = some (after, rest)) :
    after.Tabular := by
  unfold line? at read
  split at read
  · obtain ⟨⟨path, more⟩, -, read⟩ := Option.bind_eq_some_iff.mp read
    obtain ⟨more, -, read⟩ := Option.bind_eq_some_iff.mp read
    obtain ⟨more, -, read⟩ := Option.bind_eq_some_iff.mp read
    obtain ⟨more, -, read⟩ := Option.bind_eq_some_iff.mp read
    obtain ⟨_, begun, same⟩ := Option.map_eq_some_iff.mp read
    cases same
    exact tabular_beginElement tabular begun
  · obtain ⟨⟨path, more⟩, -, read⟩ := Option.bind_eq_some_iff.mp read
    obtain ⟨more, -, read⟩ := Option.bind_eq_some_iff.mp read
    obtain ⟨more, -, read⟩ := Option.bind_eq_some_iff.mp read
    obtain ⟨_, begun, same⟩ := Option.map_eq_some_iff.mp read
    cases same
    exact tabular_beginTable tabular begun
  · obtain ⟨⟨path, more⟩, -, read⟩ := Option.bind_eq_some_iff.mp read
    obtain ⟨more, -, read⟩ := Option.bind_eq_some_iff.mp read
    obtain ⟨⟨value, more⟩, isValue, read⟩ := Option.bind_eq_some_iff.mp read
    obtain ⟨more, -, read⟩ := Option.bind_eq_some_iff.mp read
    obtain ⟨_, entered, same⟩ := Option.map_eq_some_iff.mp read
    cases same
    obtain ⟨entries, enters, same⟩ := Option.bind_eq_some_iff.mp entered
    cases same
    have isTabular := (tabular_of_fuel _).1 _ _ _ _ isValue
    exact ⟨tabular.root, tabular_enter tabular.current isTabular enters⟩

theorem tabular_lines {fuel : Nat} (tabular : d.Tabular) (read : lines? fuel d cs = some after) :
    after.Tabular := by
  induction fuel generalizing d cs with
  | zero => cases read
  | succ fuel ih =>
    unfold lines? at read
    split at read
    · cases read
      exact tabular
    · split at read
      -- A comment, and a blank line that ends in either way.
      · obtain ⟨more, -, read⟩ := Option.bind_eq_some_iff.mp read
        exact ih tabular read
      · obtain ⟨more, -, read⟩ := Option.bind_eq_some_iff.mp read
        exact ih tabular read
      · obtain ⟨more, -, read⟩ := Option.bind_eq_some_iff.mp read
        exact ih tabular read
      · obtain ⟨⟨next, more⟩, line, read⟩ := Option.bind_eq_some_iff.mp read
        exact ih (tabular_line tabular line) read

/-- A document is a table, its keys differ, and the same holds of all tables in it. -/
theorem read?_tabular (read : read? cs = some j) :
    (∃ members, j = .object members) ∧ j.Tabular := by
  obtain ⟨d, isRead, read⟩ := Option.bind_eq_some_iff.mp read
  obtain ⟨entries, finished, same⟩ := Option.bind_eq_some_iff.mp read
  cases same
  have tabular := tabular_lines (d := .empty) ⟨tabular_nil, tabular_nil⟩ isRead
  exact ⟨⟨_, rfl⟩, tabular_object_iff.mpr (tabular_finish tabular finished)⟩

end Toml

end ExchangeNode
