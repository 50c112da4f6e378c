import ExchangeNode.Timestamp.Reader

/-!
# Exchange records

What the clients of a node and the exchange tell each other: demands and supplies advertised on a
channel, the selection of one of them, and the message buses over which a match is carried out.
-/

namespace ExchangeNode

/-- Bytes that the exchange hands on without a look. -/
structure Content where
  bytes : List UInt8
  deriving DecidableEq, Repr

instance : Record Content where
  fields := ["entity"]
  members c := [("entity", encode c.bytes)]
  read? setting fields := do
    let bytes ← fields.withDefault setting "entity" []
    some { bytes }

/-- The two sides of a match. -/
inductive Side where
  | demand
  | supply
  deriving DecidableEq, Repr

namespace Side

def name : Side → String
  | .demand => "demand"
  | .supply => "supply"

/-- The field that holds the name of what is demanded or supplied. -/
def nameField (side : Side) : String := side.name ++ "_name"

end Side

/-- A demand or supply advertised on a channel. -/
structure Advert (side : Side) where
  id : UInt64
  sender : UInt64
  /-- The advert that this one answers, or zero. -/
  target : UInt64
  channelType : UInt32
  name : String
  time : Timestamp
  argument : String
  bus : UInt64
  content : Option Content
  deriving DecidableEq, Repr

abbrev Demand := Advert .demand

abbrev Supply := Advert .supply

instance {side : Side} : Record (Advert side) where
  fields := ["id", "sender_id", "target_id", "channel_type", side.nameField, "ts", "arg_json",
    "mbus_id", "cdata"]
  members a := [("id", encode a.id), ("sender_id", encode a.sender), ("target_id", encode a.target),
    ("channel_type", encode a.channelType), (side.nameField, encode a.name), ("ts", encode a.time),
    ("arg_json", encode a.argument), ("mbus_id", encode a.bus)] ++ optionalMember "cdata" a.content
  read? setting fields := do
    let id ← fields.required setting "id"
    let sender ← fields.required setting "sender_id"
    let target ← fields.withDefault setting "target_id" 0
    let channelType ← fields.required setting "channel_type"
    let name ← fields.required setting side.nameField
    let time ← fields.required setting "ts"
    let argument ← fields.withDefault setting "arg_json" ""
    let bus ← fields.withDefault setting "mbus_id" 0
    let content ← fields.optional setting "cdata"
    some { id, sender, target, channelType, name, time, argument, bus, content }

/-- What a client wants to advertise. Its id is assigned once the exchange has accepted it. -/
structure Draft where
  id : UInt64
  target : UInt64
  name : String
  argument : String
  content : Option Content
  deriving DecidableEq, Repr

namespace Draft

/-- A draft addressed to everyone. -/
def broadcast (name argument : String) : Draft := ⟨0, 0, name, argument, none⟩

/-- A draft that answers an advert of the other side. -/
def answering {side : Side} (advert : Advert side) (name argument : String) : Draft :=
  { broadcast name argument with target := advert.id }

end Draft

/-- A choice of one advert, or the consent to a match. -/
structure Selection where
  id : UInt64
  sender : UInt64
  target : UInt64
  channelType : UInt32
  bus : UInt64
  deriving DecidableEq, Repr

instance : Record Selection where
  fields := ["id", "sender_id", "target_id", "channel_type", "mbus_id"]
  members s := [("id", encode s.id), ("sender_id", encode s.sender), ("target_id", encode s.target),
    ("channel_type", encode s.channelType), ("mbus_id", encode s.bus)]
  read? setting fields := do
    let id ← fields.required setting "id"
    let sender ← fields.required setting "sender_id"
    let target ← fields.required setting "target_id"
    let channelType ← fields.required setting "channel_type"
    let bus ← fields.withDefault setting "mbus_id" 0
    some { id, sender, target, channelType, bus }

/-- The answer to a selection; the bus is zero when none was opened. -/
structure Confirmation where
  ok : Bool
  bus : UInt64
  err : String
  deriving DecidableEq, Repr

instance : Record Confirmation where
  fields := ["ok", "mbus_id", "err"]
  members c := [("ok", encode c.ok), ("mbus_id", encode c.bus), ("err", encode c.err)]
  read? setting fields := do
    let ok ← fields.required setting "ok"
    let bus ← fields.withDefault setting "mbus_id" 0
    let err ← fields.withDefault setting "err" ""
    some { ok, bus, err }

/-- What one client sees of the adverts of one type. -/
structure Channel where
  client : UInt64
  channelType : UInt32
  argument : String
  deriving DecidableEq, Repr

instance : Record Channel where
  fields := ["client_id", "channel_type", "arg_json"]
  members c := [("client_id", encode c.client), ("channel_type", encode c.channelType),
    ("arg_json", encode c.argument)]
  read? setting fields := do
    let client ← fields.required setting "client_id"
    let channelType ← fields.required setting "channel_type"
    let argument ← fields.withDefault setting "arg_json" ""
    some { client, channelType, argument }

end ExchangeNode
