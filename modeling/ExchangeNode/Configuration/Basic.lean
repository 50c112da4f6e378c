import ExchangeNode.Directory.Basic

/-!
# Configuration

Every field has a default, so a configuration names only what it changes. The options of a server
are a section of their own; where it is absent the node is no server.
-/

namespace ExchangeNode

structure ServerOptions where
  nodeType : NodeType
  exchangeAddress : String
  cluster : Int32
  area : String
  gateway : String
  deriving DecidableEq, Repr

namespace ServerOptions

def standard : ServerOptions := ⟨.server, "", 0, "Default", ""⟩

instance : Record ServerOptions where
  fields := ["node_type", "server_info", "cluster_id", "area_id", "gw_info"]
  members o := [("node_type", encode o.nodeType), ("server_info", encode o.exchangeAddress),
    ("cluster_id", encode o.cluster), ("area_id", encode o.area), ("gw_info", encode o.gateway)]
  read? setting fields := do
    let nodeType ← fields.withDefault setting "node_type" standard.nodeType
    let exchangeAddress ← fields.withDefault setting "server_info" standard.exchangeAddress
    let cluster ← fields.withDefault setting "cluster_id" standard.cluster
    let area ← fields.withDefault setting "area_id" standard.area
    let gateway ← fields.withDefault setting "gw_info" standard.gateway
    some { nodeType, exchangeAddress, cluster, area, gateway }

end ServerOptions

structure NodeOptions where
  name : String
  directoryAddress : String
  channelTypes : List UInt32
  server : Option ServerOptions
  deriving DecidableEq, Repr

namespace NodeOptions

def standard : NodeOptions := ⟨"agora-node", "127.0.0.1:9990", [], none⟩

instance : Record NodeOptions where
  fields := ["name", "directory_addr", "channel_types", "server"]
  members o := [("name", encode o.name), ("directory_addr", encode o.directoryAddress),
    ("channel_types", encode o.channelTypes), ("server", o.server.elim .null encode)]
  read? setting fields := do
    let name ← fields.withDefault setting "name" standard.name
    let directoryAddress ← fields.withDefault setting "directory_addr" standard.directoryAddress
    let channelTypes ← fields.withDefault setting "channel_types" standard.channelTypes
    let server ← fields.optional setting "server"
    some { name, directoryAddress, channelTypes, server }

end NodeOptions

structure KeepAliveOptions where
  longestBackoffSeconds : UInt64
  jitter : Float
  /-- How long a node that has to move waits for its proposals. -/
  serverChangeWaitSeconds : UInt64
  deriving DecidableEq, Repr

namespace KeepAliveOptions

def standard : KeepAliveOptions := ⟨300, 0.1, 30⟩

instance : Record KeepAliveOptions where
  fields := ["max_backoff_secs", "jitter", "server_change_wait_secs"]
  members o := [("max_backoff_secs", encode o.longestBackoffSeconds), ("jitter", encode o.jitter),
    ("server_change_wait_secs", encode o.serverChangeWaitSeconds)]
  read? setting fields := do
    let longestBackoffSeconds ←
      fields.withDefault setting "max_backoff_secs" standard.longestBackoffSeconds
    let jitter ← fields.withDefault setting "jitter" standard.jitter
    let serverChangeWaitSeconds ←
      fields.withDefault setting "server_change_wait_secs" standard.serverChangeWaitSeconds
    some { longestBackoffSeconds, jitter, serverChangeWaitSeconds }

end KeepAliveOptions

structure ExchangeOptions where
  /-- Empty when the exchange assigned at registration is meant. -/
  address : String
  callTimeoutSeconds : UInt64
  deriving DecidableEq, Repr

namespace ExchangeOptions

def standard : ExchangeOptions := ⟨"", 10⟩

instance : Record ExchangeOptions where
  fields := ["server_addr", "call_timeout_secs"]
  members o := [("server_addr", encode o.address),
    ("call_timeout_secs", encode o.callTimeoutSeconds)]
  read? setting fields := do
    let address ← fields.withDefault setting "server_addr" standard.address
    let callTimeoutSeconds ←
      fields.withDefault setting "call_timeout_secs" standard.callTimeoutSeconds
    some { address, callTimeoutSeconds }

end ExchangeOptions

structure Configuration where
  node : NodeOptions
  keepAlive : KeepAliveOptions
  exchange : ExchangeOptions
  deriving DecidableEq, Repr

namespace Configuration

def standard : Configuration := ⟨.standard, .standard, .standard⟩

instance : Inhabited Configuration := ⟨standard⟩

instance : Record Configuration where
  fields := ["node", "keepalive", "exchange"]
  members c := [("node", encode c.node), ("keepalive", encode c.keepAlive),
    ("exchange", encode c.exchange)]
  read? setting fields := do
    let node ← fields.withDefault setting "node" standard.node
    let keepAlive ← fields.withDefault setting "keepalive" standard.keepAlive
    let exchange ← fields.withDefault setting "exchange" standard.exchange
    some { node, keepAlive, exchange }

end Configuration

end ExchangeNode
