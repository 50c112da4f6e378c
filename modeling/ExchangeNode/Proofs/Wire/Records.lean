import ExchangeNode.Directory.Basic
import ExchangeNode.Exchange.Bus
import ExchangeNode.Proofs.Json.Lawful
import ExchangeNode.Proofs.Timestamp.RoundTrip

/-!
# The records of directory and exchange read back

Every record of the two services is lawful. All but the load report, and with it the heartbeat, are
plain too: those two hold real numbers, of which not every one is found again in its text.
-/

namespace ExchangeNode

open Json (Readable)

open Fields (required_of_eq withDefault_of_eq optional_of_held)

/-! ### Timestamps and choices -/

instance : LawfulCodec Timestamp where
  decode?_encode _ t := by
    simp only [decode?, encode, String.toList_ofList]
    exact Timestamp.read?_render t

instance {depth : Nat} : PlainCodec Timestamp depth where
  readable_encode t := .string (String.ofList t.render)

instance : LawfulChoice NodeType where
  ofName?_name a := by cases a <;> decide

instance : LawfulChoice DirectoryCommand where
  ofName?_name a := by cases a <;> decide

instance : LawfulChoice BusAccess where
  ofName?_name a := by cases a <;> decide

instance : LawfulChoice BusStatus where
  ofName?_name a := by cases a <;> decide

/-! ### Directory records -/

instance : LawfulRecord Registration where
  distinct _ := by simp [Record.members]
  read?_of_held _ _ _ held _ := by
    simp only [Record.members, List.forall_mem_cons] at held
    obtain ⟨name, nodeType, exchangeAddress, protocolVersion, previousNode, cluster, area,
      channelTypes, gateway, softwareVersion, -⟩ := held
    simp [Record.read?, required_of_eq name, required_of_eq nodeType,
      withDefault_of_eq exchangeAddress, required_of_eq protocolVersion,
      required_of_eq previousNode, withDefault_of_eq cluster, withDefault_of_eq area,
      withDefault_of_eq channelTypes, withDefault_of_eq gateway, withDefault_of_eq softwareVersion]

instance : LawfulRecord Identity where
  distinct _ := by simp [Record.members]
  read?_of_held _ _ _ held _ := by
    simp only [Record.members, List.forall_mem_cons] at held
    obtain ⟨node, secret, exchangeAddress, heartbeatSeconds, -⟩ := held
    simp [Record.read?, required_of_eq node, required_of_eq secret,
      withDefault_of_eq exchangeAddress, required_of_eq heartbeatSeconds]

instance : LawfulRecord LoadReport where
  distinct _ := by simp [Record.members]
  read?_of_held _ _ _ held _ := by
    simp only [Record.members, List.forall_mem_cons] at held
    obtain ⟨cpu, memory, handled, -⟩ := held
    simp [Record.read?, withDefault_of_eq cpu, withDefault_of_eq memory, required_of_eq handled]

instance : LawfulRecord Heartbeat where
  distinct h := by
    rcases h with ⟨node, secret, count, status, detail, _ | load⟩
    · simp [Record.members, optionalMember]
    · simp [Record.members, optionalMember]
  read?_of_held _ _ _ held bare := by
    simp only [Record.members, List.forall_mem_append, List.forall_mem_cons] at held
    obtain ⟨⟨node, secret, count, status, detail, -⟩, load⟩ := held
    have load := optional_of_held load fun empty =>
      bare "status" (by simp [Record.members, optionalMember, empty])
    simp [Record.read?, required_of_eq node, required_of_eq secret, required_of_eq count,
      required_of_eq status, required_of_eq detail, load]

instance : LawfulRecord HeartbeatReply where
  distinct _ := by simp [Record.members]
  read?_of_held _ _ _ held _ := by
    simp only [Record.members, List.forall_mem_cons] at held
    obtain ⟨ok, command, err, -⟩ := held
    simp [Record.read?, required_of_eq ok, withDefault_of_eq command, withDefault_of_eq err]

instance : LawfulRecord Ack where
  distinct _ := by simp [Record.members]
  read?_of_held _ _ _ held _ := by
    simp only [Record.members, List.forall_mem_cons] at held
    obtain ⟨ok, err, -⟩ := held
    simp [Record.read?, required_of_eq ok, withDefault_of_eq err]

/-! ### Exchange records -/

instance : LawfulRecord Content where
  distinct _ := by simp [Record.members]
  read?_of_held _ _ _ held _ := by
    simp only [Record.members, List.forall_mem_cons] at held
    simp [Record.read?, withDefault_of_eq held.1]

instance {side : Side} : LawfulRecord (Advert side) where
  distinct a := by
    rcases a with ⟨id, sender, target, channelType, name, time, argument, bus, _ | content⟩
    · cases side <;> simp [Record.members, optionalMember, Side.nameField, Side.name]
    · cases side <;> simp [Record.members, optionalMember, Side.nameField, Side.name]
  read?_of_held _ _ _ held bare := by
    simp only [Record.members, List.forall_mem_append, List.forall_mem_cons] at held
    obtain ⟨⟨id, sender, target, channelType, name, time, argument, bus, -⟩, content⟩ := held
    have content := optional_of_held content fun empty => bare "cdata" (by
      cases side <;> simp [Record.members, optionalMember, empty, Side.nameField, Side.name])
    simp [Record.read?, required_of_eq id, required_of_eq sender, withDefault_of_eq target,
      required_of_eq channelType, required_of_eq name, required_of_eq time,
      withDefault_of_eq argument, withDefault_of_eq bus, content]

instance : LawfulRecord Selection where
  distinct _ := by simp [Record.members]
  read?_of_held _ _ _ held _ := by
    simp only [Record.members, List.forall_mem_cons] at held
    obtain ⟨id, sender, target, channelType, bus, -⟩ := held
    simp [Record.read?, required_of_eq id, required_of_eq sender, required_of_eq target,
      required_of_eq channelType, withDefault_of_eq bus]

instance : LawfulRecord Confirmation where
  distinct _ := by simp [Record.members]
  read?_of_held _ _ _ held _ := by
    simp only [Record.members, List.forall_mem_cons] at held
    obtain ⟨ok, bus, err, -⟩ := held
    simp [Record.read?, required_of_eq ok, withDefault_of_eq bus, withDefault_of_eq err]

instance : LawfulRecord Channel where
  distinct _ := by simp [Record.members]
  read?_of_held _ _ _ held _ := by
    simp only [Record.members, List.forall_mem_cons] at held
    obtain ⟨client, channelType, argument, -⟩ := held
    simp [Record.read?, required_of_eq client, required_of_eq channelType,
      withDefault_of_eq argument]

instance : LawfulRecord Bus where
  distinct _ := by simp [Record.members]
  read?_of_held _ _ _ held _ := by
    simp only [Record.members, List.forall_mem_cons] at held
    obtain ⟨client, id, argument, -⟩ := held
    simp [Record.read?, required_of_eq client, required_of_eq id, withDefault_of_eq argument]

instance : LawfulRecord BusOptions where
  distinct _ := by simp [Record.members]
  read?_of_held _ _ _ held _ := by
    simp only [Record.members, List.forall_mem_cons] at held
    obtain ⟨access, subscribers, -⟩ := held
    simp [Record.read?, withDefault_of_eq access, withDefault_of_eq subscribers]

instance : LawfulRecord BusState where
  distinct _ := by simp [Record.members]
  read?_of_held _ _ _ held _ := by
    simp only [Record.members, List.forall_mem_cons] at held
    obtain ⟨bus, status, subscribers, -⟩ := held
    simp [Record.read?, required_of_eq bus, withDefault_of_eq status,
      withDefault_of_eq subscribers]

instance : LawfulRecord BusMessage where
  distinct m := by
    rcases m with ⟨id, sender, target, bus, kind, info, argument, _ | content⟩
    · simp [Record.members, optionalMember]
    · simp [Record.members, optionalMember]
  read?_of_held _ _ _ held bare := by
    simp only [Record.members, List.forall_mem_append, List.forall_mem_cons] at held
    obtain ⟨⟨id, sender, target, bus, kind, info, argument, -⟩, content⟩ := held
    have content := optional_of_held content fun empty =>
      bare "cdata" (by simp [Record.members, optionalMember, empty])
    simp [Record.read?, required_of_eq id, required_of_eq sender, withDefault_of_eq target,
      required_of_eq bus, withDefault_of_eq kind, withDefault_of_eq info,
      withDefault_of_eq argument, content]

/-! ### What their texts lead back to -/

section

variable {depth : Nat}

instance : PlainCodec Registration (depth + 2) where
  readable_encode _ := readable_record (by simp [Record.members, readable_encode])

instance : PlainCodec Identity (depth + 1) where
  readable_encode _ := readable_record (by simp [Record.members, readable_encode])

instance : PlainCodec HeartbeatReply (depth + 1) where
  readable_encode _ := readable_record (by simp [Record.members, readable_encode])

instance : PlainCodec Ack (depth + 1) where
  readable_encode _ := readable_record (by simp [Record.members, readable_encode])

instance : PlainCodec Content (depth + 2) where
  readable_encode _ := readable_record (by simp [Record.members, readable_encode])

instance {side : Side} : PlainCodec (Advert side) (depth + 3) where
  readable_encode _ := readable_record <| List.forall_mem_append.mpr
    ⟨by simp [readable_encode], fun _ => readable_of_mem_optionalMember⟩

instance : PlainCodec Selection (depth + 1) where
  readable_encode _ := readable_record (by simp [Record.members, readable_encode])

instance : PlainCodec Confirmation (depth + 1) where
  readable_encode _ := readable_record (by simp [Record.members, readable_encode])

instance : PlainCodec Channel (depth + 1) where
  readable_encode _ := readable_record (by simp [Record.members, readable_encode])

instance : PlainCodec Bus (depth + 1) where
  readable_encode _ := readable_record (by simp [Record.members, readable_encode])

instance : PlainCodec BusOptions (depth + 2) where
  readable_encode _ := readable_record (by simp [Record.members, readable_encode])

instance : PlainCodec BusState (depth + 2) where
  readable_encode _ := readable_record (by simp [Record.members, readable_encode])

instance : PlainCodec BusMessage (depth + 3) where
  readable_encode _ := readable_record <| List.forall_mem_append.mpr
    ⟨by simp [readable_encode], fun _ => readable_of_mem_optionalMember⟩

/-- A load report whose two real numbers are found again in their texts. -/
structure LoadReport.Rereads (r : LoadReport) : Prop where
  cpu : Json.Rereads r.cpu
  memory : Json.Rereads r.memory

instance (r : LoadReport) : Decidable r.Rereads :=
  decidable_of_iff (Json.Rereads r.cpu ∧ Json.Rereads r.memory)
    ⟨fun ⟨cpu, memory⟩ => ⟨cpu, memory⟩, fun ⟨cpu, memory⟩ => ⟨cpu, memory⟩⟩

theorem readable_loadReport {r : LoadReport} (rereads : r.Rereads) :
    Readable (depth + 1) (encode r) :=
  readable_record <| by
    simp only [Record.members, List.forall_mem_cons]
    exact ⟨.real rereads.cpu, .real rereads.memory, readable_encode r.handled, nofun⟩

theorem readable_heartbeat {h : Heartbeat} (rereads : ∀ load, h.load = some load → load.Rereads) :
    Readable (depth + 2) (encode h) := by
  refine readable_record <| List.forall_mem_append.mpr ⟨by simp [readable_encode], ?_⟩
  intro member isMember
  cases held : h.load with
  | none =>
    rw [held] at isMember
    cases isMember
  | some load =>
    rw [held] at isMember
    obtain rfl := List.mem_singleton.mp isMember
    exact readable_loadReport (rereads load held)

end

end ExchangeNode
