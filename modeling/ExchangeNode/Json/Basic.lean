/-!
# JSON values

Objects keep their members in order and repeated keys as often as they occur; what a repetition
means is for the record that is read to say. A whole number that fits 64 bits is an `integer`, every
other number a `real`. `garbled` stands for a value that is well formed only as far as its reader
can pass over it: a text that is no Unicode text, a number beyond every finite one, or an object
with a garbled key. No field accepts it.
-/

namespace ExchangeNode

inductive Json where
  | null
  | boolean (b : Bool)
  | integer (n : Int)
  | real (x : Float)
  | string (s : String)
  | array (items : List Json)
  | object (members : List (String × Json))
  | garbled
  deriving Repr, Inhabited

namespace Json

mutual

/-- Holds no garbled value and nests at most `depth` arrays and objects. -/
def sound (depth : Nat) : Json → Bool
  | .garbled => false
  | .array items => match depth with
    | 0 => false
    | depth + 1 => soundItems depth items
  | .object members => match depth with
    | 0 => false
    | depth + 1 => soundMembers depth members
  | _ => true

def soundItems (depth : Nat) : List Json → Bool
  | [] => true
  | item :: rest => sound depth item && soundItems depth rest

def soundMembers (depth : Nat) : List (String × Json) → Bool
  | [] => true
  | (_, value) :: rest => sound depth value && soundMembers depth rest

end

end Json

end ExchangeNode
