import ExchangeNode.Json.Printer
import ExchangeNode.Json.Reader
import ExchangeNode.Wire.Request
import ExchangeNode.Wire.Response

/-!
# Messages

A message is one flat object: its id, its type, the method or record that names its content, and the
content. Reading looks at the same object three times: for the id and the type, for the name of the
content, and for the content. A type, method or record may also be given by its place in the list of
all of them. Unlike a record on its own, a message has no room for anything garbled, not even
where it is passed over.
-/

namespace ExchangeNode

inductive Body where
  | request (request : Request)
  | response (response : Response)
  | item (item : Item)
  deriving DecidableEq, Repr

structure Message where
  /-- A response has the id of its request. -/
  id : UInt64
  body : Body
  deriving DecidableEq, Repr

inductive BodyKind where
  | request
  | response
  | item
  deriving DecidableEq, Repr

instance : Choice BodyKind where
  all := [.request, .response, .item]
  name
    | .request => "request"
    | .response => "response"
    | .item => "item"

/-- A choice given by name or by place. -/
def Choice.ofTag? {α : Type} [Choice α] : Json → Option α
  | .string name => Choice.ofName? name
  | .integer n => if 0 ≤ n then (Choice.all : List α)[n.toNat]? else none
  | _ => none

namespace Message

def nesting : Nat := 127

def members (m : Message) : List (String × Json) :=
  ("id", encode m.id) :: match m.body with
  | .request request =>
    [("type", encode BodyKind.request), ("method", encode request.method),
      (request.method.argumentName, request.argument)]
  | .response response =>
    [("type", encode BodyKind.response), ("method", encode response.kind)] ++ response.members
  | .item item =>
    [("type", encode BodyKind.item), ("record", encode item.kind)] ++ item.members

def toJson (m : Message) : Json := .object m.members

/-- The choice under a name that may occur only once. -/
def tag? {α : Type} [Choice α] (j : Json) (name : String) : Option α :=
  ((Fields.of? .message [name] j).bind fun fields => fields name).bind Choice.ofTag?

def readBody? (j : Json) : BodyKind → Option Body
  | .request => do
    let method : Method ← tag? j "method"
    let fields ← Fields.of? .message [method.argumentName] j
    (method.request? .message (← fields method.argumentName)).map .request
  | .response => do
    let kind : ResponseKind ← tag? j "method"
    let fields ← Fields.of? .message kind.fields j
    (kind.read? .message fields).map .response
  | .item => do
    let kind : ItemKind ← tag? j "record"
    let fields ← Fields.of? .message kind.fields j
    (kind.read? .message fields).map .item

def isObject : Json → Bool
  | .object _ => true
  | _ => false

def ofJson? (j : Json) : Option Message :=
  if isObject j && j.sound nesting then do
    let fields ← Fields.of? .message ["id"] j
    let id ← fields.required .message "id"
    let kind : BodyKind ← tag? j "type"
    let body ← readBody? j kind
    some ⟨id, body⟩
  else none

def text (m : Message) : String := m.toJson.text

/-- The bytes of a message. -/
def bytes (m : Message) : List UInt8 := m.text.toUTF8.toList

/-- The message that the bytes are, if they are one. -/
def ofBytes? (bytes : List UInt8) : Option Message := (Json.read? bytes).bind ofJson?

end Message

end ExchangeNode
