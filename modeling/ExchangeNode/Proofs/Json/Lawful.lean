import Mathlib.Data.List.Nodup
import ExchangeNode.Json.Codec
import ExchangeNode.Table
import ExchangeNode.Proofs.Json.RoundTrip

/-!
# Lawful codecs

A codec is lawful when it reads back what it writes, and plain when what it writes can be read back
from its text. Both are passed on from the fields to the record: a record whose field names differ
is read through a lookup of each of its names, and finds there what it was written with.
-/

namespace ExchangeNode

open Json (Readable)

class LawfulCodec (α : Type) [Codec α] : Prop where
  decode?_encode (setting : Setting) (a : α) : decode? setting (encode a) = some a

export LawfulCodec (decode?_encode)

/-- Whatever is written can be read back from its text, and nests at most `depth` arrays and
objects. -/
class PlainCodec (α : Type) [Codec α] (depth : Nat) : Prop where
  readable_encode (a : α) : Readable depth (encode a)

export PlainCodec (readable_encode)

class LawfulChoice (α : Type) [Choice α] : Prop where
  ofName?_name (a : α) : Choice.ofName? (Choice.name a) = some a

class LawfulRecord (α : Type) [Record α] : Prop where
  distinct (a : α) : ((Record.members a).map (·.1)).Nodup
  read?_of_held (setting : Setting) (a : α) (fields : Fields)
    (held : ∀ member ∈ Record.members a, fields member.1 = some member.2)
    (bare : ∀ name ∉ (Record.members a).map (·.1), fields name = none) :
    Record.read? setting fields = some a

attribute [simp] decode?_encode LawfulChoice.ofName?_name

/-! ### Values without parts -/

instance : LawfulCodec Bool where
  decode?_encode _ _ := rfl

instance : LawfulCodec String where
  decode?_encode _ _ := rfl

instance : LawfulCodec UInt64 where
  decode?_encode _ n := by
    have small := n.toNat_lt
    simp only [decode?, encode]
    rw [if_pos (by omega), Int.toNat_natCast, UInt64.ofNat_toNat]

instance : LawfulCodec UInt32 where
  decode?_encode _ n := by
    have small := n.toNat_lt
    simp only [decode?, encode]
    rw [if_pos (by omega), Int.toNat_natCast, UInt32.ofNat_toNat]

instance : LawfulCodec UInt8 where
  decode?_encode _ n := by
    have small := n.toNat_lt
    simp only [decode?, encode]
    rw [if_pos (by omega), Int.toNat_natCast, UInt8.ofNat_toNat]

instance : LawfulCodec Int32 where
  decode?_encode _ n := by
    have low := n.le_toInt
    have high := n.toInt_lt
    simp only [decode?, encode]
    rw [if_pos (by omega), Int32.ofInt_toInt]

instance : LawfulCodec Float where
  decode?_encode _ _ := rfl

instance {α : Type} [Choice α] [LawfulChoice α] : LawfulCodec α where
  decode?_encode _ a := LawfulChoice.ofName?_name a

instance {α : Type} [Codec α] [LawfulCodec α] : LawfulCodec (List α) where
  decode?_encode setting items := by
    simp only [decode?, encode]
    induction items with
    | nil => rfl
    | cons item rest ih => simp [ih]

section

variable {depth : Nat}

instance : PlainCodec Bool depth where
  readable_encode b := .boolean b

instance : PlainCodec String depth where
  readable_encode s := .string s

instance : PlainCodec UInt64 depth where
  readable_encode n := .integer (by omega) (by have := n.toNat_lt; omega)

instance : PlainCodec UInt32 depth where
  readable_encode n := .integer (by omega) (by have := n.toNat_lt; omega)

instance : PlainCodec UInt8 depth where
  readable_encode n := .integer (by omega) (by have := n.toNat_lt; omega)

instance : PlainCodec Int32 depth where
  readable_encode n := .integer (by have := n.le_toInt; omega) (by have := n.toInt_lt; omega)

instance {α : Type} [Choice α] : PlainCodec α depth where
  readable_encode a := .string (Choice.name a)

instance {α : Type} [Codec α] [PlainCodec α depth] : PlainCodec (List α) (depth + 1) where
  readable_encode items := .array fun _ member => by
    obtain ⟨item, -, rfl⟩ := List.mem_map.mp member
    exact readable_encode item

end

/-! ### Records -/

namespace Fields

theorem repeated_of_nodup {members : List (String × Json)} (distinct : (members.map (·.1)).Nodup)
    (name : String) : repeated members name = false := by
  have once : (members.map (·.1)).count name ≤ 1 := List.nodup_iff_count_le_one.mp distinct name
  rw [List.count, List.countP_map, List.countP_eq_length_filter] at once
  exact decide_eq_false (Nat.not_lt.mpr once)

/-- The fields of an object whose names differ. -/
theorem of?_object {members : List (String × Json)} (distinct : (members.map (·.1)).Nodup)
    (setting : Setting) (names : List String) :
    of? setting names (.object members) = some fun name => members.lookup name := by
  rw [of?, if_neg]
  simp [repeated_of_nodup distinct]

variable {α : Type} {fields : Fields} {name : String}

theorem required_of_eq [Codec α] [LawfulCodec α] {a : α} (held : fields name = some (encode a))
    (setting : Setting) : fields.required setting name = some a := by
  rw [required, held, Option.bind_some, decode?_encode]

theorem withDefault_of_eq [Codec α] [LawfulCodec α] {a : α} (held : fields name = some (encode a))
    (setting : Setting) (default : α) : fields.withDefault setting name default = some a := by
  rw [withDefault, held]
  exact decode?_encode setting a

/-- A field that was left out or not. -/
theorem optional_of_held [Record α] [LawfulCodec α] {a : Option α}
    (held : ∀ member ∈ optionalMember name a, fields member.1 = some member.2)
    (bare : a = none → fields name = none) (setting : Setting) :
    fields.optional setting name = some a := by
  cases a with
  | none => rw [optional, bare rfl]
  | some a =>
    rw [optional, held (name, encode a) (List.mem_singleton.mpr rfl)]
    exact congrArg (Option.map some) (decode?_encode setting a)

end Fields

theorem lookup_of_not_mem {members : List (String × Json)} {name : String}
    (absent : name ∉ members.map (·.1)) : members.lookup name = none := by
  rw [List.lookup_eq_none_iff]
  intro member isMember
  have different : name ≠ member.1 := by
    rintro rfl
    exact absent (List.mem_map_of_mem isMember)
  simp [different]

instance {α : Type} [Record α] [LawfulRecord α] : LawfulCodec α where
  decode?_encode setting a := by
    have fields := Fields.of?_object (LawfulRecord.distinct a) setting (Record.fields α)
    simp only [decode?, encode, fields, Option.bind_some]
    exact LawfulRecord.read?_of_held setting a _
      (fun member isMember => lookup_of_mem (LawfulRecord.distinct a) isMember)
      (fun _ absent => lookup_of_not_mem absent)

theorem readable_record {α : Type} [Record α] {depth : Nat} {a : α}
    (all : ∀ member ∈ Record.members a, Readable depth member.2) :
    Readable (depth + 1) (encode a) := .object all

theorem readable_of_mem_optionalMember {α : Type} [Codec α] {depth : Nat} [PlainCodec α depth]
    {name : String} {a : Option α} {member : String × Json}
    (isMember : member ∈ optionalMember name a) : Readable depth member.2 := by
  cases a with
  | none => cases isMember
  | some a =>
    obtain rfl := List.mem_singleton.mp isMember
    exact readable_encode a

end ExchangeNode
