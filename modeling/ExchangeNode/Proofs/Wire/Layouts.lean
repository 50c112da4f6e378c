import ExchangeNode.Proofs.Json.Restated
import ExchangeNode.Proofs.Wire.Records

/-!
# The fields of the records and their defaults

The layout of every record of the two services: which fields it has to have, and which may be left
out and what they are then. Each record is read from its encoding in other words, since it asks for
each field by name and fills in the very defaults that are declared here.
-/

namespace ExchangeNode

open Layout

/-! ### Values without parts -/

instance : Laid Bool := ⟨.plain⟩

instance : Laid String := ⟨.plain⟩

instance : Laid UInt64 := ⟨.plain⟩

instance : Laid UInt32 := ⟨.plain⟩

instance : Laid Int32 := ⟨.plain⟩

instance : Laid Float := ⟨.plain⟩

instance : Laid Timestamp := ⟨.plain⟩

instance {α : Type} [Choice α] : Laid α := ⟨.plain⟩

instance {α : Type} : Laid (List α) := ⟨.plain⟩

instance : LawfulLaid Bool := ⟨decode?_of_plain rfl⟩

instance : LawfulLaid String := ⟨decode?_of_plain rfl⟩

instance : LawfulLaid UInt64 := ⟨decode?_of_plain rfl⟩

instance : LawfulLaid UInt32 := ⟨decode?_of_plain rfl⟩

instance : LawfulLaid Int32 := ⟨decode?_of_plain rfl⟩

instance : LawfulLaid Float := ⟨decode?_of_plain rfl⟩

instance : LawfulLaid Timestamp := ⟨decode?_of_plain rfl⟩

instance {α : Type} [Choice α] [LawfulChoice α] : LawfulLaid α := ⟨decode?_of_plain rfl⟩

instance {α : Type} [Codec α] [LawfulCodec α] : LawfulLaid (List α) := ⟨decode?_of_plain rfl⟩

/-- A field that has to be there. -/
def Layout.needed (α : Type) [Laid α] : Layout × Option Json := (Laid.layout α, none)

/-- A field that may be left out when it holds its default. -/
def Layout.spared {α : Type} [Codec α] [Laid α] (default : α) : Layout × Option Json :=
  (Laid.layout α, some (encode default))

/-! ### Records -/

instance : LaidRecord Registration where
  fields := [("node_name", needed String), ("node_type", needed NodeType),
    ("server_info", spared ""), ("protocol_version", needed String),
    ("with_node_id", needed Int32), ("cluster_id", spared (0 : Int32)), ("area_id", spared ""),
    ("channel_types", spared ([] : List UInt32)), ("gw_info", spared ""),
    ("bin_version", spared "")]

instance : LaidRecord Identity where
  fields := [("node_id", needed Int32), ("secret", needed UInt64), ("server_info", spared ""),
    ("keepalive_duration", needed Int32)]

instance : LaidRecord LoadReport where
  fields := [("cpu", spared (0.0 : Float)), ("memory", spared (0.0 : Float)),
    ("msg_count", needed UInt64)]

/-- An optional field is left out of the encoding already when it has no value. -/
instance : LaidRecord Heartbeat where
  fields := [("node_id", needed Int32), ("secret", needed UInt64), ("update_count", needed UInt64),
    ("node_status", needed Int32), ("node_arg", needed String), ("status", needed LoadReport)]

instance : LaidRecord HeartbeatReply where
  fields := [("ok", needed Bool), ("command", spared DirectoryCommand.nothing), ("err", spared "")]

instance : LaidRecord Ack where
  fields := [("ok", needed Bool), ("err", spared "")]

instance : LaidRecord Content where
  fields := [("entity", spared ([] : List UInt8))]

instance {side : Side} : LaidRecord (Advert side) where
  fields := [("id", needed UInt64), ("sender_id", needed UInt64),
    ("target_id", spared (0 : UInt64)), ("channel_type", needed UInt32),
    (side.nameField, needed String), ("ts", needed Timestamp), ("arg_json", spared ""),
    ("mbus_id", spared (0 : UInt64)), ("cdata", needed Content)]

instance : LaidRecord Selection where
  fields := [("id", needed UInt64), ("sender_id", needed UInt64), ("target_id", needed UInt64),
    ("channel_type", needed UInt32), ("mbus_id", spared (0 : UInt64))]

instance : LaidRecord Confirmation where
  fields := [("ok", needed Bool), ("mbus_id", spared (0 : UInt64)), ("err", spared "")]

instance : LaidRecord Channel where
  fields := [("client_id", needed UInt64), ("channel_type", needed UInt32), ("arg_json", spared "")]

instance : LaidRecord Bus where
  fields := [("client_id", needed UInt64), ("mbus_id", needed UInt64), ("arg_json", spared "")]

instance : LaidRecord BusOptions where
  fields := [("mbus_type", spared BusAccess.anyone), ("subscribers", spared ([] : List UInt64))]

instance : LaidRecord BusState where
  fields := [("mbus_id", needed UInt64), ("status", spared BusStatus.fresh),
    ("subscribers", spared ([] : List UInt64))]

instance : LaidRecord BusMessage where
  fields := [("msg_id", needed UInt64), ("sender_id", needed UInt64),
    ("target_id", spared (0 : UInt64)), ("mbus_id", needed UInt64),
    ("msg_type", spared (0 : UInt32)), ("msg_info", spared ""), ("arg_json", spared ""),
    ("cdata", needed Content)]

instance : LawfulLaidRecord Registration where
  names := rfl
  read?_of_shown _ _ shown _ := by
    simp only [Record.members, List.forall_mem_cons] at shown
    obtain ⟨name, nodeType, exchangeAddress, protocolVersion, previousNode, cluster, area,
      channelTypes, gateway, softwareVersion, -⟩ := shown
    simp [Record.read?, required_of_shown name rfl, required_of_shown nodeType rfl,
      withDefault_of_shown exchangeAddress rfl, required_of_shown protocolVersion rfl,
      required_of_shown previousNode rfl, withDefault_of_shown cluster rfl,
      withDefault_of_shown area rfl, withDefault_of_shown channelTypes rfl,
      withDefault_of_shown gateway rfl, withDefault_of_shown softwareVersion rfl]

instance : LawfulLaidRecord Identity where
  names := rfl
  read?_of_shown _ _ shown _ := by
    simp only [Record.members, List.forall_mem_cons] at shown
    obtain ⟨node, secret, exchangeAddress, heartbeatSeconds, -⟩ := shown
    simp [Record.read?, required_of_shown node rfl, required_of_shown secret rfl,
      withDefault_of_shown exchangeAddress rfl, required_of_shown heartbeatSeconds rfl]

instance : LawfulLaidRecord LoadReport where
  names := rfl
  read?_of_shown _ _ shown _ := by
    simp only [Record.members, List.forall_mem_cons] at shown
    obtain ⟨cpu, memory, handled, -⟩ := shown
    simp [Record.read?, withDefault_of_shown cpu rfl, withDefault_of_shown memory rfl,
      required_of_shown handled rfl]

instance : LawfulLaidRecord Heartbeat where
  names := rfl
  read?_of_shown _ _ shown bare := by
    simp only [Record.members, List.forall_mem_append, List.forall_mem_cons] at shown
    obtain ⟨⟨node, secret, count, status, detail, -⟩, load⟩ := shown
    have load := optional_of_shown load (fun empty => bare "status"
      (by simp [Record.fields]) (by simp [Record.members, optionalMember, empty])) rfl
    simp [Record.read?, required_of_shown node rfl, required_of_shown secret rfl,
      required_of_shown count rfl, required_of_shown status rfl, required_of_shown detail rfl,
      load]

instance : LawfulLaidRecord HeartbeatReply where
  names := rfl
  read?_of_shown _ _ shown _ := by
    simp only [Record.members, List.forall_mem_cons] at shown
    obtain ⟨ok, command, err, -⟩ := shown
    simp [Record.read?, required_of_shown ok rfl, withDefault_of_shown command rfl,
      withDefault_of_shown err rfl]

instance : LawfulLaidRecord Ack where
  names := rfl
  read?_of_shown _ _ shown _ := by
    simp only [Record.members, List.forall_mem_cons] at shown
    obtain ⟨ok, err, -⟩ := shown
    simp [Record.read?, required_of_shown ok rfl, withDefault_of_shown err rfl]

instance : LawfulLaidRecord Content where
  names := rfl
  read?_of_shown _ _ shown _ := by
    simp only [Record.members, List.forall_mem_cons] at shown
    obtain ⟨bytes, -⟩ := shown
    simp [Record.read?, withDefault_of_shown bytes rfl]

/-- Only the name of the name depends on the side. -/
instance {side : Side} : LawfulLaidRecord (Advert side) where
  names := rfl
  read?_of_shown _ _ shown bare := by
    simp only [Record.members, List.forall_mem_append, List.forall_mem_cons] at shown
    obtain ⟨⟨id, sender, target, channelType, name, time, argument, bus, -⟩, content⟩ := shown
    cases side with
    | demand | supply =>
      have content := optional_of_shown content (fun empty => bare "cdata"
        (by simp [Record.fields])
        (by simp [Record.members, optionalMember, empty, Side.nameField, Side.name])) rfl
      simp [Record.read?, required_of_shown id rfl, required_of_shown sender rfl,
        withDefault_of_shown target rfl, required_of_shown channelType rfl,
        required_of_shown name rfl, required_of_shown time rfl, withDefault_of_shown argument rfl,
        withDefault_of_shown bus rfl, content]

instance : LawfulLaidRecord Selection where
  names := rfl
  read?_of_shown _ _ shown _ := by
    simp only [Record.members, List.forall_mem_cons] at shown
    obtain ⟨id, sender, target, channelType, bus, -⟩ := shown
    simp [Record.read?, required_of_shown id rfl, required_of_shown sender rfl,
      required_of_shown target rfl, required_of_shown channelType rfl,
      withDefault_of_shown bus rfl]

instance : LawfulLaidRecord Confirmation where
  names := rfl
  read?_of_shown _ _ shown _ := by
    simp only [Record.members, List.forall_mem_cons] at shown
    obtain ⟨ok, bus, err, -⟩ := shown
    simp [Record.read?, required_of_shown ok rfl, withDefault_of_shown bus rfl,
      withDefault_of_shown err rfl]

instance : LawfulLaidRecord Channel where
  names := rfl
  read?_of_shown _ _ shown _ := by
    simp only [Record.members, List.forall_mem_cons] at shown
    obtain ⟨client, channelType, argument, -⟩ := shown
    simp [Record.read?, required_of_shown client rfl, required_of_shown channelType rfl,
      withDefault_of_shown argument rfl]

instance : LawfulLaidRecord Bus where
  names := rfl
  read?_of_shown _ _ shown _ := by
    simp only [Record.members, List.forall_mem_cons] at shown
    obtain ⟨client, id, argument, -⟩ := shown
    simp [Record.read?, required_of_shown client rfl, required_of_shown id rfl,
      withDefault_of_shown argument rfl]

instance : LawfulLaidRecord BusOptions where
  names := rfl
  read?_of_shown _ _ shown _ := by
    simp only [Record.members, List.forall_mem_cons] at shown
    obtain ⟨access, subscribers, -⟩ := shown
    simp [Record.read?, withDefault_of_shown access rfl, withDefault_of_shown subscribers rfl]

instance : LawfulLaidRecord BusState where
  names := rfl
  read?_of_shown _ _ shown _ := by
    simp only [Record.members, List.forall_mem_cons] at shown
    obtain ⟨bus, status, subscribers, -⟩ := shown
    simp [Record.read?, required_of_shown bus rfl, withDefault_of_shown status rfl,
      withDefault_of_shown subscribers rfl]

instance : LawfulLaidRecord BusMessage where
  names := rfl
  read?_of_shown _ _ shown bare := by
    simp only [Record.members, List.forall_mem_append, List.forall_mem_cons] at shown
    obtain ⟨⟨id, sender, target, bus, kind, info, argument, -⟩, content⟩ := shown
    have content := optional_of_shown content (fun empty => bare "cdata"
      (by simp [Record.fields]) (by simp [Record.members, optionalMember, empty])) rfl
    simp [Record.read?, required_of_shown id rfl, required_of_shown sender rfl,
      withDefault_of_shown target rfl, required_of_shown bus rfl, withDefault_of_shown kind rfl,
      withDefault_of_shown info rfl, withDefault_of_shown argument rfl, content]

end ExchangeNode
