import ExchangeNode.Proofs.Json.Lawful

/-!
# The same record in other words

Peers of other versions write a record in another order, leave out fields that hold their defaults,
and add fields of their own. `Restates` says of two values that the second one is the first in such
other words, for a layout that knows the fields of each record and their defaults. A record is read
from such a value as from its encoding: under each name it knows there is at most one value, and it
restates the encoded one or has been left out as the default.
-/

namespace ExchangeNode

/-- How a value is made of records. A field of a record has a layout of its own and, if it may be
left out, the value that it then stands for. -/
inductive Layout where
  | plain
  | record (fields : List (String × Layout × Option Json))

namespace Layout

/-- The members that are kept of some: all but those left out because they hold the default. -/
inductive Keeps (restates : Layout → Json → Json → Prop) :
    Layout → List (String × Json) → List (String × Json) → Prop
  | nil {fields : List (String × Layout × Option Json)} : Keeps restates (.record fields) [] []
  | kept {fields : List (String × Layout × Option Json)} {name : String} {layout : Layout}
      {spare : Option Json} {value restated : Json} {members rest : List (String × Json)}
      (known : fields.lookup name = some (layout, spare)) (same : restates layout value restated)
      (keeps : Keeps restates (.record fields) members rest) :
      Keeps restates (.record fields) ((name, value) :: members) ((name, restated) :: rest)
  | leftOut {fields : List (String × Layout × Option Json)} {name : String} {layout : Layout}
      {value : Json} {members rest : List (String × Json)}
      (known : fields.lookup name = some (layout, some value))
      (keeps : Keeps restates (.record fields) members rest) :
      Keeps restates (.record fields) ((name, value) :: members) rest

/-- A record may be written in any order, without some fields that hold their defaults, and with
fields added under names that it does not know. -/
inductive Restates : Layout → Json → Json → Prop
  | plain (j : Json) : Restates .plain j j
  | record {fields : List (String × Layout × Option Json)}
      {members kept added restated : List (String × Json)}
      (keeps : Keeps Restates (.record fields) members kept)
      (unknown : ∀ member ∈ added, fields.lookup member.1 = none)
      (order : restated.Perm (kept ++ added)) :
      Restates (.record fields) (.object members) (.object restated)

variable {fields : List (String × Layout × Option Json)} {name : String}
  {members kept added restated : List (String × Json)}

/-- What has become of a field: its value is restated, or it was left out as the default. -/
def Shown (fields : List (String × Layout × Option Json)) (found : Fields) (name : String)
    (value : Json) : Prop :=
  ∃ layout spare, fields.lookup name = some (layout, spare) ∧
    ((∃ restated, found name = some restated ∧ Restates layout value restated) ∨
      (found name = none ∧ spare = some value))

/-- A field that has to be there is there. -/
theorem Shown.of_needed {found : Fields} {value : Json} {layout : Layout}
    (shown : Shown fields found name value) (known : fields.lookup name = some (layout, none)) :
    ∃ restated, found name = some restated ∧ Restates layout value restated := by
  obtain ⟨_, _, isKnown, fate⟩ := shown
  cases known.symm.trans isKnown
  obtain isThere | ⟨-, isSpare⟩ := fate
  · exact isThere
  · cases isSpare

/-! ### Members that are kept -/

theorem names_of_keeps {record : Layout} (keeps : Keeps Restates record members kept) :
    (kept.map (·.1)).Sublist (members.map (·.1)) := by
  induction keeps with
  | nil => exact .slnil
  | kept _ _ _ ih => exact ih.cons_cons _
  | leftOut _ _ ih => exact ih.cons _

theorem fate_of_keeps {record : Layout} (keeps : Keeps Restates record members kept)
    (isRecord : record = .record fields) (distinct : (members.map (·.1)).Nodup) {value : Json}
    (member : (name, value) ∈ members) :
    ∃ layout spare, fields.lookup name = some (layout, spare) ∧
      ((∃ restated, (name, restated) ∈ kept ∧ Restates layout value restated) ∨
        (name ∉ kept.map (·.1) ∧ spare = some value)) := by
  -- The layout is an index of the relation: `isRecord` gives the fields back in each case.
  induction keeps with
  | nil => cases member
  | @kept _ first layout spare _ restated members rest known same keeps ih =>
    cases isRecord
    obtain ⟨fresh, others⟩ := List.nodup_cons.mp distinct
    rcases List.mem_cons.mp member with here | later
    · cases here
      exact ⟨layout, spare, known, .inl ⟨restated, List.mem_cons_self, same⟩⟩
    · have ih := ih rfl others later
      obtain ⟨layout, spare, found, ⟨restated, isKept, same⟩ | ⟨absent, default⟩⟩ := ih
      · exact ⟨layout, spare, found, .inl ⟨restated, List.mem_cons_of_mem _ isKept, same⟩⟩
      · have different : name ≠ first := by
          rintro rfl
          exact fresh (List.mem_map.mpr ⟨_, later, rfl⟩)
        refine ⟨layout, spare, found, .inr ⟨?_, default⟩⟩
        simp only [List.map_cons, List.mem_cons, not_or]
        exact ⟨different, absent⟩
  | @leftOut _ first layout _ members rest known keeps ih =>
    cases isRecord
    obtain ⟨fresh, others⟩ := List.nodup_cons.mp distinct
    rcases List.mem_cons.mp member with here | later
    · cases here
      refine ⟨layout, _, known, .inr ⟨fun kept => fresh ?_, rfl⟩⟩
      exact (names_of_keeps keeps).subset kept
    · exact ih rfl others later

/-! ### Looking up a name that occurs once -/

theorem lookup_of_once (once : Fields.repeated members name = false) {value : Json}
    (member : (name, value) ∈ members) : members.lookup name = some value := by
  obtain ⟨before, after, rfl⟩ := List.append_of_mem member
  refine List.lookup_eq_some_iff.mpr ⟨before, after, rfl, fun earlier isEarlier => ?_⟩
  refine bne_iff_ne.mpr fun same => ?_
  -- A second member of this name would be one too many.
  have isThere : earlier ∈ before.filter fun member => member.1 == name :=
    List.mem_filter.mpr ⟨isEarlier, by simp [same]⟩
  have isPositive := List.length_pos_of_mem isThere
  simp only [Fields.repeated, List.filter_append, List.length_append, beq_self_eq_true,
    List.filter_cons_of_pos, List.length_cons, decide_eq_false_iff_not] at once
  omega

theorem repeated_of_perm {others : List (String × Json)} (order : members.Perm others) :
    Fields.repeated members name = Fields.repeated others name := by
  simp only [Fields.repeated]
  rw [(order.filter _).length_eq]

/-- A known name occurs at most once in a record that is restated. -/
theorem once_of_restates (keeps : Keeps Restates (.record fields) members kept)
    (distinct : (members.map (·.1)).Nodup)
    (unknown : ∀ member ∈ added, fields.lookup member.1 = none)
    (order : restated.Perm (kept ++ added)) (known : (fields.lookup name).isSome) :
    Fields.repeated restated name = false := by
  have none : (added.filter fun member => member.1 == name) = [] := by
    rw [List.filter_eq_nil_iff]
    intro member isAdded same
    rw [← beq_iff_eq.mp same, unknown member isAdded] at known
    cases known
  have once := Fields.repeated_of_nodup (distinct.sublist (names_of_keeps keeps)) name
  rw [repeated_of_perm order]
  rw [Fields.repeated, List.filter_append, none, List.append_nil]
  exact once

/-! ### Reading a restated record -/

/-- A restated record is read like its encoding: each known name occurs at most once, and leads to
what has become of its field. -/
structure Reads (fields : List (String × Layout × Option Json))
    (members restated : List (String × Json)) : Prop where
  once : ∀ name, (fields.lookup name).isSome → Fields.repeated restated name = false
  shown : ∀ member ∈ members, Shown fields (fun name => restated.lookup name) member.1 member.2
  bare : ∀ name, (fields.lookup name).isSome → name ∉ members.map (·.1) →
    restated.lookup name = none

theorem reads_of_restates {j : Json} (distinct : (members.map (·.1)).Nodup)
    (restates : Restates (.record fields) (.object members) j) :
    ∃ restated, j = .object restated ∧ Reads fields members restated := by
  cases restates with
  | @record _ _ kept added restated keeps unknown order =>
    refine ⟨restated, rfl, ?_⟩
    have once : ∀ name, (fields.lookup name).isSome → Fields.repeated restated name = false :=
      fun name known => once_of_restates keeps distinct unknown order known
    have absent : ∀ name, (fields.lookup name).isSome → name ∉ kept.map (·.1) →
        restated.lookup name = none := by
      intro name known notKept
      -- What is found under a known name was kept, as nothing is added under such a name.
      refine lookup_of_not_mem fun found => ?_
      obtain ⟨member, isMember, rfl⟩ := List.mem_map.mp found
      rcases List.mem_append.mp (order.subset isMember) with isKept | isAdded
      · exact notKept (List.mem_map_of_mem isKept)
      · rw [unknown member isAdded] at known
        cases known
    constructor
    · exact once
    · rintro ⟨name, value⟩ member
      obtain ⟨layout, spare, known, fate⟩ := fate_of_keeps keeps rfl distinct member
      have isKnown : (fields.lookup name).isSome := by rw [known]; rfl
      refine ⟨layout, spare, known, ?_⟩
      obtain ⟨restated, isKept, same⟩ | ⟨notKept, default⟩ := fate
      · have isThere := order.symm.subset (List.mem_append_left added isKept)
        exact .inl ⟨restated, lookup_of_once (once name isKnown) isThere, same⟩
      · exact .inr ⟨absent name isKnown notKept, default⟩
    · intro name known notMember
      exact absent name known fun kept => notMember ((names_of_keeps keeps).subset kept)

theorem Reads.of? (reads : Reads fields members restated) {names : List String}
    (known : ∀ name ∈ names, (fields.lookup name).isSome) :
    Fields.of? .message names (.object restated) = some fun name => restated.lookup name := by
  rw [Fields.of?, if_neg]
  simp only [List.any_eq_true, not_exists, not_and, Bool.not_eq_true]
  exact fun name isName => reads.once name (known name isName)

end Layout

/-! ### Types whose values have a layout -/

open Layout

/-- How all values of a type are made of records. -/
class Laid (α : Type) where
  layout : Layout

/-- The fields of a record in the order of their declaration, with the defaults declared. -/
class LaidRecord (α : Type) where
  fields : List (String × Layout × Option Json)

instance {α : Type} [LaidRecord α] : Laid α where
  layout := .record (LaidRecord.fields α)

/-- A value is read from its encoding in other words. -/
class LawfulLaid (α : Type) [Codec α] [Laid α] : Prop where
  decode?_of_restates (a : α) {j : Json} (restates : Restates (Laid.layout α) (encode a) j) :
    decode? .message j = some a

export LawfulLaid (decode?_of_restates)

class LawfulLaidRecord (α : Type) [Record α] [LaidRecord α] : Prop where
  names : (LaidRecord.fields α).map (·.1) = Record.fields α
  read?_of_shown (a : α) (found : Fields)
    (shown : ∀ member ∈ Record.members a, Shown (LaidRecord.fields α) found member.1 member.2)
    (bare : ∀ name ∈ Record.fields α, name ∉ (Record.members a).map (·.1) → found name = none) :
    Record.read? .message found = some a

theorem decode?_of_plain {α : Type} [Codec α] [LawfulCodec α] [Laid α]
    (plain : Laid.layout α = .plain) (a : α) {j : Json}
    (restates : Restates (Laid.layout α) (encode a) j) : decode? .message j = some a := by
  rw [plain] at restates
  cases restates
  exact decode?_encode .message a

theorem isSome_lookup_of_mem {α : Type} {entries : List (String × α)} {name : String}
    (isName : name ∈ entries.map (·.1)) : (entries.lookup name).isSome := by
  obtain ⟨entry, member, rfl⟩ := List.mem_map.mp isName
  exact List.lookup_isSome_iff.mpr ⟨entry, member, beq_self_eq_true _⟩

instance {α : Type} [Record α] [LawfulRecord α] [LaidRecord α] [LawfulLaidRecord α] :
    LawfulLaid α where
  decode?_of_restates a j restates := by
    obtain ⟨restated, rfl, reads⟩ := reads_of_restates (LawfulRecord.distinct a) restates
    have known : ∀ name ∈ Record.fields α, ((LaidRecord.fields α).lookup name).isSome := by
      intro name isName
      rw [← LawfulLaidRecord.names] at isName
      exact isSome_lookup_of_mem isName
    simp only [decode?, reads.of? known, Option.bind_some]
    exact LawfulLaidRecord.read?_of_shown a _ reads.shown fun name isName =>
      reads.bare name (known name isName)

section

variable {α : Type} {fields : List (String × Layout × Option Json)} {found : Fields}
  {name : String}

theorem required_of_shown [Codec α] [Laid α] [LawfulLaid α] {a : α}
    (shown : Shown fields found name (encode a))
    (known : fields.lookup name = some (Laid.layout α, none)) :
    found.required .message name = some a := by
  obtain ⟨restated, isFound, same⟩ := shown.of_needed known
  rw [Fields.required, isFound, Option.bind_some, decode?_of_restates a same]

theorem withDefault_of_shown [Codec α] [LawfulCodec α] [Laid α] [LawfulLaid α] {a default : α}
    (shown : Shown fields found name (encode a))
    (known : fields.lookup name = some (Laid.layout α, some (encode default))) :
    found.withDefault .message name default = some a := by
  obtain ⟨_, _, isKnown, fate⟩ := shown
  cases known.symm.trans isKnown
  obtain ⟨restated, isFound, same⟩ | ⟨isMissing, isSpare⟩ := fate
  · rw [Fields.withDefault, isFound]
    exact decode?_of_restates a same
  -- What was left out is encoded like the default, so it is the default.
  · have read := decode?_encode .message default
    rw [Option.some.inj isSpare, decode?_encode] at read
    rw [Fields.withDefault, isMissing]
    exact read.symm

theorem optional_of_shown [Record α] [LaidRecord α] [LawfulRecord α] [LawfulLaidRecord α]
    {a : Option α}
    (shown : ∀ member ∈ optionalMember name a, Shown fields found member.1 member.2)
    (bare : a = none → found name = none)
    (known : fields.lookup name = some (.record (LaidRecord.fields α), none)) :
    found.optional .message name = some a := by
  cases a with
  | none => rw [Fields.optional, bare rfl]
  | some a =>
    have shown := shown (name, encode a) (List.mem_singleton.mpr rfl)
    obtain ⟨restated, isFound, same⟩ := shown.of_needed known
    have read := decode?_of_restates a same
    obtain ⟨members, rfl, -⟩ := reads_of_restates (LawfulRecord.distinct a) same
    rw [Fields.optional, isFound]
    exact congrArg (Option.map some) read

end

end ExchangeNode
