import ExchangeNode.Configuration.Basic
import ExchangeNode.Proofs.Json.Lawful
import ExchangeNode.Proofs.Toml.Tables

/-!
# Sections with defaults

A section of a configuration names some of its fields, and the others keep their defaults. What a
value means is stated here without the reader, and so is when a section is at fault: it has no
section's shape, or one of its known fields is at fault. A type that is read from a document is
lawful when reading agrees with both.
-/

namespace ExchangeNode

/-- A section is a table, or an array of its fields in their order. -/
def Json.IsSection (j : Json) : Prop :=
  (∃ members, j = .object members) ∨ ∃ items, j = .array items

/-- A section gives a value to a field: a table under its name, an array in its place. -/
inductive Json.Gives (names : List String) : Json → String → Json → Prop
  | named {members : List (String × Json)} {name : String} {value : Json}
      (member : (name, value) ∈ members) : Gives names (.object members) name value
  | placed {items : List Json} {place : Nat} {name : String} {value : Json}
      (known : names[place]? = some name) (item : items[place]? = some value) :
      Gives names (.array items) name value

/-- What has to fit: a value as a whole, or a section in each of its known fields. -/
inductive Schema where
  | value (fits : Json → Prop)
  | record (fields : List (String × Schema))

/-- One known field of the wrong type or out of its range is a fault of the whole. -/
inductive Faulty : Schema → Json → Prop
  | misfit {fits : Json → Prop} {j : Json} (unfit : ¬ fits j) : Faulty (.value fits) j
  | shape {fields : List (String × Schema)} {j : Json} (other : ¬ j.IsSection) :
      Faulty (.record fields) j
  | field {fields : List (String × Schema)} {j value : Json} {name : String} {schema : Schema}
      (known : (name, schema) ∈ fields) (given : j.Gives (fields.map (·.1)) name value)
      (faulty : Faulty schema value) : Faulty (.record fields) j

/-- What values of a document mean. -/
class Meaning (α : Type) where
  Means : Json → α → Prop
  schema : Schema := .value fun j => ∃ a, Means j a

export Meaning (Means)

/-- A section of a document: its fields, and what it means when it has a section's shape. -/
class Overlaying (α : Type) where
  fields : List (String × Schema)
  Overlays : Json → α → Prop

export Overlaying (Overlays)

instance {α : Type} [Overlaying α] : Meaning α where
  Means j a := j.IsSection ∧ Overlays j a
  schema := .record (Overlaying.fields α)

/-- A field has the value that the section gives to it, or its default if there is none. -/
structure Overlaid {α : Type} [Meaning α] (names : List String) (j : Json) (name : String)
    (default a : α) : Prop where
  given : ∀ value, j.Gives names name value → Means value a
  absent : (∀ value, ¬ j.Gives names name value) → a = default

/-! ### Values -/

instance : Meaning String where
  Means j s := j = .string s

instance : Meaning UInt64 where
  Means j n := j = .integer n.toNat

instance : Meaning UInt32 where
  Means j n := j = .integer n.toNat

instance : Meaning Int32 where
  Means j n := j = .integer n.toInt

/-- A whole number may stand for the real one. -/
instance : Meaning Float where
  Means j x := j = .real x ∨ ∃ n, j = .integer n ∧ x = Float.ofInt n

/-- A choice is named, alone or over an empty table or array. -/
instance {α : Type} [Choice α] : Meaning α where
  Means j a := j = .string (Choice.name a) ∨
    ∃ content, j = .object [(Choice.name a, content)] ∧ (content = .object [] ∨ content = .array [])

instance {α : Type} [Meaning α] : Meaning (List α) where
  Means j as := ∃ items, j = .array items ∧ List.Forall₂ Means items as

instance {α : Type} [Meaning α] : Meaning (Option α) where
  Means j o := ∃ a, o = some a ∧ Means j a
  schema := Meaning.schema α

/-- A reader gives what a value means, and fails on the values at fault. -/
structure Agrees {α : Type} [Meaning α] (read : Json → Option α) : Prop where
  means_iff {j : Json} (tabular : j.Tabular) (a : α) : read j = some a ↔ Means j a
  faulty_iff {j : Json} (tabular : j.Tabular) : read j = none ↔ Faulty (Meaning.schema α) j

class LawfulMeaning (α : Type) [Codec α] [Meaning α] : Prop where
  agrees : Agrees (decode? .document : Json → Option α)

export LawfulMeaning (agrees)

variable {j : Json} {names : List String} {name : String}

theorem faulty_value_iff {fits : Json → Prop} : Faulty (.value fits) j ↔ ¬ fits j := by
  constructor
  · intro faulty
    cases faulty with
    | misfit unfit => exact unfit
  · exact .misfit

/-- A value without fields is at fault when it means nothing. -/
theorem agrees_of_means {α : Type} [Codec α] [Meaning α]
    (means : ∀ j : Json, j.Tabular → ∀ a : α, decode? .document j = some a ↔ Means j a)
    (plain : Meaning.schema α = .value fun j => ∃ a : α, Means j a) :
    Agrees (decode? .document : Json → Option α) where
  means_iff {j} := means j
  faulty_iff {j} tabular := by
    rw [plain, faulty_value_iff, not_exists, Option.eq_none_iff_forall_ne_some]
    exact forall_congr' fun a => not_congr (means j tabular a)

theorem eq_encode_iff {α : Type} [Codec α] [LawfulCodec α]
    (written : ∀ a : α, decode? .document j = some a → j = encode a) (a : α) :
    decode? .document j = some a ↔ j = encode a := by
  constructor
  · exact written a
  · rintro rfl
    exact decode?_encode .document a

theorem means_string_iff : ∀ s : String, decode? .document j = some s ↔ Means j s := by
  refine eq_encode_iff fun s read => ?_
  cases j with
  | string text =>
    cases read
    rfl
  | _ => cases read

theorem means_uint64_iff : ∀ n : UInt64, decode? .document j = some n ↔ Means j n := by
  refine eq_encode_iff fun n read => ?_
  cases j with
  | integer m =>
    simp only [decode?] at read
    split at read
    next range =>
      cases read
      have small : m.toNat < UInt64.size := by
        simp only [UInt64.size]
        omega
      simp only [encode, UInt64.toNat_ofNat_of_lt' small, Int.toNat_of_nonneg range.1]
    · cases read
  | _ => cases read

theorem means_uint32_iff : ∀ n : UInt32, decode? .document j = some n ↔ Means j n := by
  refine eq_encode_iff fun n read => ?_
  cases j with
  | integer m =>
    simp only [decode?] at read
    split at read
    next range =>
      cases read
      have small : m.toNat < UInt32.size := by
        simp only [UInt32.size]
        omega
      simp only [encode, UInt32.toNat_ofNat_of_lt' small, Int.toNat_of_nonneg range.1]
    · cases read
  | _ => cases read

theorem means_int32_iff : ∀ n : Int32, decode? .document j = some n ↔ Means j n := by
  refine eq_encode_iff fun n read => ?_
  cases j with
  | integer m =>
    simp only [decode?] at read
    split at read
    next range =>
      cases read
      simp only [encode, Int32.toInt_ofInt_of_le range.1 range.2]
    · cases read
  | _ => cases read

theorem means_float_iff (x : Float) : decode? .document j = some x ↔ Means j x := by
  cases j with
  | real y => simp [decode?, Means]
  | integer n => simp [decode?, Means, eq_comm]
  | _ => simp [decode?, Means]

theorem ofName?_iff {α : Type} [Choice α] [LawfulChoice α] {a : α} :
    Choice.ofName? name = some a ↔ name = Choice.name a := by
  constructor
  · intro found
    have same := List.find?_some (p := fun a => Choice.name a == name) found
    exact (beq_iff_eq.mp same).symm
  · rintro rfl
    exact LawfulChoice.ofName?_name a

theorem isEmptyContent_document_iff {content : Json} :
    Choice.isEmptyContent .document content ↔ content = .object [] ∨ content = .array [] := by
  cases content with
  | object members => cases members <;> simp [Choice.isEmptyContent]
  | array items => cases items <;> simp [Choice.isEmptyContent]
  | _ => simp [Choice.isEmptyContent]

theorem means_choice_iff {α : Type} [Choice α] [LawfulChoice α] (a : α) :
    decode? .document j = some a ↔ Means j a := by
  cases j with
  | string name => simp [decode?, Choice.decode?, Means, ofName?_iff]
  | object members =>
    match members with
    | [] => simp [decode?, Choice.decode?, Means]
    | [(name, content)] =>
      simp [decode?, Choice.decode?, Means, ofName?_iff, isEmptyContent_document_iff, and_comm]
    | _ :: _ :: _ => simp [decode?, Choice.decode?, Means]
  | _ => simp [decode?, Choice.decode?, Means]

theorem means_items_iff {α : Type} [Codec α] [Meaning α] [LawfulMeaning α] {items : List Json}
    (each : ∀ item ∈ items, item.Tabular) (as : List α) :
    items.mapM (decode? .document) = some as ↔ List.Forall₂ Means items as := by
  induction items generalizing as with
  | nil => cases as <;> simp
  | cons item rest ih =>
    obtain ⟨first, others⟩ := List.forall_mem_cons.mp each
    rw [List.mapM_cons, List.forall₂_cons_left_iff]
    simp only [Option.bind_eq_bind, Option.bind_eq_some_iff, Option.pure_def, Option.some.injEq]
    constructor
    · rintro ⟨a, isFirst, as, areOthers, rfl⟩
      exact ⟨a, as, (agrees.means_iff first a).mp isFirst, (ih others as).mp areOthers, rfl⟩
    · rintro ⟨a, as, isFirst, areOthers, rfl⟩
      exact ⟨a, (agrees.means_iff first a).mpr isFirst, as, (ih others as).mpr areOthers, rfl⟩

theorem means_list_iff {α : Type} [Codec α] [Meaning α] [LawfulMeaning α] (tabular : j.Tabular)
    (as : List α) : decode? .document j = some as ↔ Means j as := by
  cases tabular with
  | array each => simpa [decode?, Means] using means_items_iff each as
  | _ => simp [decode?, Means]

instance : LawfulMeaning String where
  agrees := agrees_of_means (fun _ _ => means_string_iff) rfl

instance : LawfulMeaning UInt64 where
  agrees := agrees_of_means (fun _ _ => means_uint64_iff) rfl

instance : LawfulMeaning UInt32 where
  agrees := agrees_of_means (fun _ _ => means_uint32_iff) rfl

instance : LawfulMeaning Int32 where
  agrees := agrees_of_means (fun _ _ => means_int32_iff) rfl

instance : LawfulMeaning Float where
  agrees := agrees_of_means (fun _ _ => means_float_iff) rfl

instance {α : Type} [Choice α] [LawfulChoice α] : LawfulMeaning α where
  agrees := agrees_of_means (fun _ _ => means_choice_iff) rfl

instance {α : Type} [Codec α] [Meaning α] [LawfulMeaning α] : LawfulMeaning (List α) where
  agrees := agrees_of_means (fun _ tabular => means_list_iff tabular) rfl

/-! ### Sections -/

theorem tabular_of_gives (tabular : j.Tabular) {value : Json} (given : j.Gives names name value) :
    value.Tabular := by
  cases given with
  | named member =>
    cases tabular with
    | object _ each => exact each _ member
  | placed _ item =>
    cases tabular with
    | array each => exact each _ (List.mem_of_getElem? item)

theorem nodup_zip {β : Type} (distinct : names.Nodup) (items : List β) :
    ((names.zip items).map (·.1)).Nodup := by
  induction names generalizing items with
  | nil => exact List.nodup_nil
  | cons name rest ih =>
    cases items with
    | nil => exact List.nodup_nil
    | cons item others =>
      obtain ⟨fresh, distinct⟩ := List.nodup_cons.mp distinct
      refine List.nodup_cons.mpr ⟨fun used => fresh ?_, ih distinct others⟩
      obtain ⟨pair, found, rfl⟩ := List.mem_map.mp used
      exact (List.of_mem_zip found).1

theorem lookup_iff_mem {members : List (String × Json)} (distinct : (members.map (·.1)).Nodup)
    {value : Json} : members.lookup name = some value ↔ (name, value) ∈ members := by
  constructor
  · exact mem_of_lookup
  · exact lookup_of_mem distinct

/-- What is found under a name in a section of a document is what the section gives to it. -/
structure Exposes (names : List String) (j : Json) (fields : Fields) : Prop where
  tabular : j.Tabular
  found_iff : ∀ name value, fields name = some value ↔ j.Gives names name value

theorem exists_fields (distinct : names.Nodup) (tabular : j.Tabular) (isSection : j.IsSection) :
    ∃ fields, Fields.of? .document names j = some fields ∧ Exposes names j fields := by
  obtain ⟨members, rfl⟩ | ⟨items, rfl⟩ := isSection
  · cases tabular with
    | object differ each =>
      refine ⟨_, Fields.of?_object differ .document names, .object differ each, ?_⟩
      intro name value
      rw [lookup_iff_mem differ]
      constructor
      · exact .named
      · intro given
        cases given with
        | named member => exact member
  · refine ⟨fun name => (names.zip items).lookup name, by simp [Fields.of?], tabular, ?_⟩
    intro name value
    rw [lookup_iff_mem (nodup_zip distinct items), List.mem_iff_getElem?]
    simp only [List.getElem?_zip_eq_some]
    constructor
    · rintro ⟨place, known, item⟩
      exact .placed known item
    · intro given
      cases given with
      | placed known item => exact ⟨_, known, item⟩

theorem of?_eq_none (other : ¬ j.IsSection) : Fields.of? .document names j = none := by
  cases j with
  | object members => exact absurd (.inl ⟨members, rfl⟩) other
  | array items => exact absurd (.inr ⟨items, rfl⟩) other
  | _ => rfl

section

variable {α : Type} [Meaning α] {read : Json → Option α} {fields : Fields}

theorem field_eq_some_iff (agrees : Agrees read) (exposes : Exposes names j fields) (name : String)
    (default a : α) :
    (fields name).elim (some default) read = some a ↔ Overlaid names j name default a := by
  cases found : fields name with
  | none =>
    have absent : ∀ value, ¬ j.Gives names name value := by
      intro value given
      rw [(exposes.found_iff name value).mpr given] at found
      cases found
    constructor
    · rintro ⟨⟩
      exact ⟨fun value given => absurd given (absent value), fun _ => rfl⟩
    · exact fun overlaid => congrArg some (overlaid.absent absent).symm
  | some value =>
    have given := (exposes.found_iff name value).mp found
    have means := agrees.means_iff (tabular_of_gives exposes.tabular given) a
    constructor
    · intro isRead
      refine ⟨fun other isGiven => ?_, fun absent => absurd given (absent value)⟩
      -- A section gives one value to a field.
      have same := (exposes.found_iff name other).mpr isGiven
      rw [found] at same
      cases same
      exact means.mp isRead
    · exact fun overlaid => means.mpr (overlaid.given value given)

theorem field_eq_none_iff (agrees : Agrees read) (exposes : Exposes names j fields) (name : String)
    (default : α) :
    (fields name).elim (some default) read = none ↔
      ∃ value, j.Gives names name value ∧ Faulty (Meaning.schema α) value := by
  cases found : fields name with
  | none =>
    refine iff_of_false nofun ?_
    rintro ⟨value, given, -⟩
    rw [(exposes.found_iff name value).mpr given] at found
    cases found
  | some value =>
    have given := (exposes.found_iff name value).mp found
    have faulty := agrees.faulty_iff (tabular_of_gives exposes.tabular given)
    constructor
    · exact fun failed => ⟨value, given, faulty.mp failed⟩
    · rintro ⟨other, isGiven, isFaulty⟩
      have same := (exposes.found_iff name other).mpr isGiven
      rw [found] at same
      cases same
      exact faulty.mpr isFaulty

end

section

variable {α : Type} [Codec α] {fields : Fields}

theorem withDefault_eq_field (name : String) (default : α) :
    fields.withDefault .document name default =
      (fields name).elim (some default) (decode? .document) := by
  rw [Fields.withDefault]
  cases fields name <;> rfl

/-- A document holds no null, so an optional field is one whose default is nothing. -/
theorem optional_eq_field (exposes : Exposes names j fields) (name : String) :
    fields.optional .document name =
      (fields name).elim (some none)
        fun value => (decode? .document value : Option α).map some := by
  rw [Fields.optional]
  cases found : fields name with
  | none => rfl
  | some value =>
    have given := (exposes.found_iff name value).mp found
    cases tabular_of_gives exposes.tabular given <;> rfl

variable [Meaning α] [LawfulMeaning α]

theorem withDefault_eq_some_iff (exposes : Exposes names j fields) (name : String) (default a : α) :
    fields.withDefault .document name default = some a ↔ Overlaid names j name default a := by
  rw [withDefault_eq_field]
  exact field_eq_some_iff agrees exposes name default a

theorem withDefault_eq_none_iff (exposes : Exposes names j fields) (name : String) (default : α) :
    fields.withDefault .document name default = none ↔
      ∃ value, j.Gives names name value ∧ Faulty (Meaning.schema α) value := by
  rw [withDefault_eq_field]
  exact field_eq_none_iff agrees exposes name default

theorem agrees_some : Agrees fun value => (decode? .document value : Option α).map some where
  means_iff {j} tabular o := by
    rw [Option.map_eq_some_iff]
    constructor
    · rintro ⟨a, isRead, rfl⟩
      exact ⟨a, rfl, (agrees.means_iff tabular a).mp isRead⟩
    · rintro ⟨a, rfl, means⟩
      exact ⟨a, (agrees.means_iff tabular a).mpr means, rfl⟩
  faulty_iff {j} tabular := by
    rw [Option.map_eq_none_iff]
    exact agrees.faulty_iff tabular

theorem optional_eq_some_iff (exposes : Exposes names j fields) (name : String) (o : Option α) :
    fields.optional .document name = some o ↔ Overlaid names j name none o := by
  rw [optional_eq_field exposes]
  exact field_eq_some_iff agrees_some exposes name none o

theorem optional_eq_none_iff (exposes : Exposes names j fields) (name : String) :
    (fields.optional .document name : Option (Option α)) = none ↔
      ∃ value, j.Gives names name value ∧ Faulty (Meaning.schema α) value := by
  rw [optional_eq_field exposes]
  exact field_eq_none_iff agrees_some exposes name none

end

/-- A section is read field by field. -/
class LawfulOverlaying (α : Type) [Record α] [Overlaying α] : Prop where
  names : Record.fields α = (Overlaying.fields α).map (·.1)
  distinct : (Record.fields α).Nodup
  overlays_iff {j : Json} {fields : Fields} (exposes : Exposes (Record.fields α) j fields) (a : α) :
    Record.read? .document fields = some a ↔ Overlays j a
  faulty_iff {j : Json} {fields : Fields} (exposes : Exposes (Record.fields α) j fields) :
    Record.read? .document fields = (none : Option α) ↔
      ∃ field ∈ Overlaying.fields α, ∃ value,
        j.Gives (Record.fields α) field.1 value ∧ Faulty field.2 value

theorem faulty_record_iff {fields : List (String × Schema)} (isSection : j.IsSection) :
    Faulty (.record fields) j ↔
      ∃ field ∈ fields, ∃ value,
        j.Gives (fields.map (·.1)) field.1 value ∧ Faulty field.2 value := by
  constructor
  · intro faulty
    cases faulty with
    | shape other => exact absurd isSection other
    | field known given faulty => exact ⟨_, known, _, given, faulty⟩
  · rintro ⟨⟨name, schema⟩, known, value, given, faulty⟩
    exact .field known given faulty

instance {α : Type} [Record α] [Overlaying α] [LawfulOverlaying α] : LawfulMeaning α where
  agrees :=
    { means_iff := fun {j} tabular a => by
        by_cases isSection : j.IsSection
        · obtain ⟨fields, isRead, exposes⟩ :=
            exists_fields (LawfulOverlaying.distinct (α := α)) tabular isSection
          simp only [decode?, Means, isRead, Option.bind_some,
            LawfulOverlaying.overlays_iff exposes, isSection, true_and]
        · simp [decode?, Means, of?_eq_none isSection, isSection]
      faulty_iff := fun {j} tabular => by
        by_cases isSection : j.IsSection
        · obtain ⟨fields, isRead, exposes⟩ :=
            exists_fields (LawfulOverlaying.distinct (α := α)) tabular isSection
          simp only [decode?, isRead, Option.bind_some, LawfulOverlaying.faulty_iff exposes,
            Meaning.schema, faulty_record_iff isSection, ← LawfulOverlaying.names]
        · simp only [decode?, of?_eq_none isSection, Option.bind_none, true_iff]
          exact .shape isSection }

end ExchangeNode
