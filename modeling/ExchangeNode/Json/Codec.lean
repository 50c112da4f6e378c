import ExchangeNode.Json.Basic

/-!
# Records as values

A record is written as an object of its fields in their fixed order. It is read from an object,
where order, unknown fields and even repeated unknown fields do not matter but a known field may
come only once, or from an array of the fields in their fixed order, which may end early. Either way
reading sees nothing but the value found under each known name, so what holds for looking up a name
holds for reading a record.
-/

namespace ExchangeNode

/-- Where a value stands: in a record of its own, in a message, or in a configuration document.
The three differ only in how a choice without content may be spelled and in whether an array may
hold more than the fields of the record. -/
inductive Setting where
  | record
  | message
  | document
  deriving DecidableEq, Repr

/-- What each field name leads to. -/
abbrev Fields := String → Option Json

class Codec (α : Type) where
  encode : α → Json
  decode? : Setting → Json → Option α

export Codec (encode decode?)

/-- A choice among named alternatives. -/
class Choice (α : Type) where
  all : List α
  name : α → String

/-- A record: its field names in order, how it is written, and how it is read. -/
class Record (α : Type) where
  fields : List String
  members : α → List (String × Json)
  read? : Setting → Fields → Option α

namespace Choice

variable {α : Type} [Choice α]

def ofName? (name : String) : Option α := all.find? fun a => Choice.name a == name

/-- The content of a choice that has none. -/
def isEmptyContent : Setting → Json → Bool
  | .record, .null => true
  | .message, .null => true
  | .message, .object [] => true
  | .document, .object [] => true
  | .document, .array [] => true
  | _, _ => false

def decode? (setting : Setting) : Json → Option α
  | .string name => ofName? name
  | .object [(name, content)] => if isEmptyContent setting content then ofName? name else none
  | _ => none

end Choice

instance {α : Type} [Choice α] : Codec α where
  encode a := .string (Choice.name a)
  decode? := Choice.decode?

namespace Fields

def repeated (members : List (String × Json)) (name : String) : Bool :=
  1 < (members.filter fun member => member.1 == name).length

/-- The fields with the given names, unless the value is no record of them. -/
def of? (setting : Setting) (names : List String) : Json → Option Fields
  | .object members =>
    if names.any (repeated members) then none else some fun name => members.lookup name
  | .array items =>
    if items.length ≤ names.length || setting = .document then
      some fun name => (names.zip items).lookup name
    else none
  | _ => none

variable {α : Type} [Codec α] (setting : Setting) (fields : Fields) (name : String)

def required : Option α := (fields name).bind (decode? setting)

def withDefault (default : α) : Option α :=
  match fields name with
  | none => some default
  | some value => decode? setting value

def optional : Option (Option α) :=
  match fields name with
  | none => some none
  | some .null => some none
  | some value => (decode? setting value).map some

end Fields

instance {α : Type} [Record α] : Codec α where
  encode a := .object (Record.members a)
  decode? setting value :=
    (Fields.of? setting (Record.fields α) value).bind (Record.read? setting)

/-- A member that is left out when it has no value. -/
def optionalMember {α : Type} [Codec α] (name : String) : Option α → List (String × Json)
  | none => []
  | some a => [(name, encode a)]

instance : Codec Bool where
  encode := .boolean
  decode?
    | _, .boolean b => some b
    | _, _ => none

instance : Codec String where
  encode := .string
  decode?
    | _, .string s => some s
    | _, _ => none

instance : Codec UInt64 where
  encode n := .integer n.toNat
  decode?
    | _, .integer n =>
      if 0 ≤ n ∧ n < 0x10000000000000000 then some (UInt64.ofNat n.toNat) else none
    | _, _ => none

instance : Codec UInt32 where
  encode n := .integer n.toNat
  decode?
    | _, .integer n => if 0 ≤ n ∧ n < 0x100000000 then some (UInt32.ofNat n.toNat) else none
    | _, _ => none

instance : Codec UInt8 where
  encode n := .integer n.toNat
  decode?
    | _, .integer n => if 0 ≤ n ∧ n < 0x100 then some (UInt8.ofNat n.toNat) else none
    | _, _ => none

instance : Codec Int32 where
  encode n := .integer n.toInt
  decode?
    | _, .integer n => if -0x80000000 ≤ n ∧ n < 0x80000000 then some (Int32.ofInt n) else none
    | _, _ => none

instance : Codec Float where
  encode := .real
  decode?
    | _, .real x => some x
    | _, .integer n => some (Float.ofInt n)
    | _, _ => none

instance {α : Type} [Codec α] : Codec (List α) where
  encode items := .array (items.map encode)
  decode?
    | setting, .array items => items.mapM (decode? setting)
    | _, _ => none

end ExchangeNode
