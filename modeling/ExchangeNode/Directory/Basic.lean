import ExchangeNode.Json.Codec

/-!
# Directory records

What a node and the directory tell each other: the registration a node asks for, the identity it is
given, the heartbeats that keep it, and the commands the directory puts into its replies.
-/

namespace ExchangeNode

inductive NodeType where
  | provider
  | server
  | gateway
  deriving DecidableEq, Repr, Inhabited

instance : Choice NodeType where
  all := [.provider, .server, .gateway]
  name
    | .provider => "provider"
    | .server => "server"
    | .gateway => "gateway"

structure Registration where
  name : String
  nodeType : NodeType
  /-- Where the node itself serves an exchange. -/
  exchangeAddress : String
  protocolVersion : String
  /-- The node number held before, or -1. -/
  previousNode : Int32
  cluster : Int32
  area : String
  channelTypes : List UInt32
  gateway : String
  softwareVersion : String
  deriving DecidableEq, Repr

instance : Record Registration where
  fields := ["node_name", "node_type", "server_info", "protocol_version", "with_node_id",
    "cluster_id", "area_id", "channel_types", "gw_info", "bin_version"]
  members r := [("node_name", encode r.name), ("node_type", encode r.nodeType),
    ("server_info", encode r.exchangeAddress), ("protocol_version", encode r.protocolVersion),
    ("with_node_id", encode r.previousNode), ("cluster_id", encode r.cluster),
    ("area_id", encode r.area), ("channel_types", encode r.channelTypes),
    ("gw_info", encode r.gateway), ("bin_version", encode r.softwareVersion)]
  read? setting fields := do
    let name ← fields.required setting "node_name"
    let nodeType ← fields.required setting "node_type"
    let exchangeAddress ← fields.withDefault setting "server_info" ""
    let protocolVersion ← fields.required setting "protocol_version"
    let previousNode ← fields.required setting "with_node_id"
    let cluster ← fields.withDefault setting "cluster_id" 0
    let area ← fields.withDefault setting "area_id" ""
    let channelTypes ← fields.withDefault setting "channel_types" []
    let gateway ← fields.withDefault setting "gw_info" ""
    let softwareVersion ← fields.withDefault setting "bin_version" ""
    some { name, nodeType, exchangeAddress, protocolVersion, previousNode, cluster, area,
           channelTypes, gateway, softwareVersion }

structure Identity where
  node : Int32
  /-- Zero once the identity has been given up. -/
  secret : UInt64
  /-- The exchange assigned to the node. -/
  exchangeAddress : String
  heartbeatSeconds : Int32
  deriving DecidableEq, Repr

namespace Identity

def isLive (i : Identity) : Bool := i.secret ≠ 0

def revoked (i : Identity) : Identity := { i with secret := 0 }

end Identity

instance : Record Identity where
  fields := ["node_id", "secret", "server_info", "keepalive_duration"]
  members i := [("node_id", encode i.node), ("secret", encode i.secret),
    ("server_info", encode i.exchangeAddress), ("keepalive_duration", encode i.heartbeatSeconds)]
  read? setting fields := do
    let node ← fields.required setting "node_id"
    let secret ← fields.required setting "secret"
    let exchangeAddress ← fields.withDefault setting "server_info" ""
    let heartbeatSeconds ← fields.required setting "keepalive_duration"
    some { node, secret, exchangeAddress, heartbeatSeconds }

/-- What a server tells about its load. -/
structure LoadReport where
  cpu : Float
  memory : Float
  /-- Messages handled since the heartbeat before. -/
  handled : UInt64
  deriving DecidableEq, Repr

instance : Record LoadReport where
  fields := ["cpu", "memory", "msg_count"]
  members r := [("cpu", encode r.cpu), ("memory", encode r.memory), ("msg_count", encode r.handled)]
  read? setting fields := do
    let cpu ← fields.withDefault setting "cpu" 0.0
    let memory ← fields.withDefault setting "memory" 0.0
    let handled ← fields.required setting "msg_count"
    some { cpu, memory, handled }

structure Heartbeat where
  node : Int32
  secret : UInt64
  /-- How many heartbeats there have been, this one included. -/
  count : UInt64
  status : Int32
  detail : String
  load : Option LoadReport
  deriving DecidableEq, Repr

namespace Heartbeat

def blank : Heartbeat := ⟨0, 0, 0, 0, "", none⟩

instance : Inhabited Heartbeat := ⟨blank⟩

end Heartbeat

instance : Record Heartbeat where
  fields := ["node_id", "secret", "update_count", "node_status", "node_arg", "status"]
  members h := [("node_id", encode h.node), ("secret", encode h.secret),
    ("update_count", encode h.count), ("node_status", encode h.status),
    ("node_arg", encode h.detail)] ++ optionalMember "status" h.load
  read? setting fields := do
    let node ← fields.required setting "node_id"
    let secret ← fields.required setting "secret"
    let count ← fields.required setting "update_count"
    let status ← fields.required setting "node_status"
    let detail ← fields.required setting "node_arg"
    let load ← fields.optional setting "status"
    some { node, secret, count, status, detail, load }

inductive DirectoryCommand where
  | nothing
  | reconnect
  | serverChange
  | providerDisconnect
  deriving DecidableEq, Repr, Inhabited

instance : Choice DirectoryCommand where
  all := [.nothing, .reconnect, .serverChange, .providerDisconnect]
  name
    | .nothing => "none"
    | .reconnect => "reconnect"
    | .serverChange => "server_change"
    | .providerDisconnect => "provider_disconnect"

structure HeartbeatReply where
  ok : Bool
  command : DirectoryCommand
  err : String
  deriving DecidableEq, Repr

instance : Record HeartbeatReply where
  fields := ["ok", "command", "err"]
  members r := [("ok", encode r.ok), ("command", encode r.command), ("err", encode r.err)]
  read? setting fields := do
    let ok ← fields.required setting "ok"
    let command ← fields.withDefault setting "command" .nothing
    let err ← fields.withDefault setting "err" ""
    some { ok, command, err }

/-- A plain answer: done, or refused for a reason. -/
structure Ack where
  ok : Bool
  err : String
  deriving DecidableEq, Repr

namespace Ack

def done : Ack := ⟨true, ""⟩

def refused (reason : String) : Ack := ⟨false, reason⟩

end Ack

instance : Record Ack where
  fields := ["ok", "err"]
  members a := [("ok", encode a.ok), ("err", encode a.err)]
  read? setting fields := do
    let ok ← fields.required setting "ok"
    let err ← fields.withDefault setting "err" ""
    some { ok, err }

end ExchangeNode
