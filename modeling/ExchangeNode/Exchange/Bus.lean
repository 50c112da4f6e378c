import ExchangeNode.Exchange.Basic

/-!
# Message buses
-/

namespace ExchangeNode

/-- A bus as one client refers to it. -/
structure Bus where
  client : UInt64
  id : UInt64
  argument : String
  deriving DecidableEq, Repr

instance : Record Bus where
  fields := ["client_id", "mbus_id", "arg_json"]
  members b := [("client_id", encode b.client), ("mbus_id", encode b.id),
    ("arg_json", encode b.argument)]
  read? setting fields := do
    let client ← fields.required setting "client_id"
    let id ← fields.required setting "mbus_id"
    let argument ← fields.withDefault setting "arg_json" ""
    some { client, id, argument }

/-- Who may join a bus: anyone, or only the subscribers listed. -/
inductive BusAccess where
  | anyone
  | listed
  deriving DecidableEq, Repr

instance : Choice BusAccess where
  all := [.anyone, .listed]
  name
    | .anyone => "public"
    | .listed => "private"

structure BusOptions where
  access : BusAccess
  subscribers : List UInt64
  deriving DecidableEq, Repr

instance : Record BusOptions where
  fields := ["mbus_type", "subscribers"]
  members o := [("mbus_type", encode o.access), ("subscribers", encode o.subscribers)]
  read? setting fields := do
    let access ← fields.withDefault setting "mbus_type" .anyone
    let subscribers ← fields.withDefault setting "subscribers" []
    some { access, subscribers }

inductive BusStatus where
  /-- Created, and nobody has joined. -/
  | fresh
  | joined
  | closed
  | unknown
  deriving DecidableEq, Repr

instance : Choice BusStatus where
  all := [.fresh, .joined, .closed, .unknown]
  name
    | .fresh => "initialized"
    | .joined => "subscribers"
    | .closed => "closed"
    | .unknown => "invalid"

structure BusState where
  bus : UInt64
  status : BusStatus
  subscribers : List UInt64
  deriving DecidableEq, Repr

instance : Record BusState where
  fields := ["mbus_id", "status", "subscribers"]
  members s := [("mbus_id", encode s.bus), ("status", encode s.status),
    ("subscribers", encode s.subscribers)]
  read? setting fields := do
    let bus ← fields.required setting "mbus_id"
    let status ← fields.withDefault setting "status" .fresh
    let subscribers ← fields.withDefault setting "subscribers" []
    some { bus, status, subscribers }

structure BusMessage where
  id : UInt64
  sender : UInt64
  /-- The participant addressed, or zero for all of them. -/
  target : UInt64
  bus : UInt64
  kind : UInt32
  info : String
  argument : String
  content : Option Content
  deriving DecidableEq, Repr

instance : Record BusMessage where
  fields := ["msg_id", "sender_id", "target_id", "mbus_id", "msg_type", "msg_info", "arg_json",
    "cdata"]
  members m := [("msg_id", encode m.id), ("sender_id", encode m.sender),
    ("target_id", encode m.target), ("mbus_id", encode m.bus), ("msg_type", encode m.kind),
    ("msg_info", encode m.info), ("arg_json", encode m.argument)] ++
    optionalMember "cdata" m.content
  read? setting fields := do
    let id ← fields.required setting "msg_id"
    let sender ← fields.required setting "sender_id"
    let target ← fields.withDefault setting "target_id" 0
    let bus ← fields.required setting "mbus_id"
    let kind ← fields.withDefault setting "msg_type" 0
    let info ← fields.withDefault setting "msg_info" ""
    let argument ← fields.withDefault setting "arg_json" ""
    let content ← fields.optional setting "cdata"
    some { id, sender, target, bus, kind, info, argument, content }

end ExchangeNode
