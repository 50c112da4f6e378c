import ExchangeNode.Configuration.File
import ExchangeNode.Proofs.Configuration.Sections
import ExchangeNode.Proofs.Wire.Records

/-!
# What a configuration file configures

A file configures what its document means, field by field: the value that the document gives to a
field, and the default where it gives none. One field that is at fault discards the document as a
whole, and all defaults stand.
-/

namespace ExchangeNode

/-! ### The fields and their defaults -/

structure ServerOptions.Overlay (j : Json) (o : ServerOptions) : Prop where
  nodeType : Overlaid (Record.fields ServerOptions) j "node_type" .server o.nodeType
  exchangeAddress : Overlaid (Record.fields ServerOptions) j "server_info" "" o.exchangeAddress
  cluster : Overlaid (Record.fields ServerOptions) j "cluster_id" 0 o.cluster
  area : Overlaid (Record.fields ServerOptions) j "area_id" "Default" o.area
  gateway : Overlaid (Record.fields ServerOptions) j "gw_info" "" o.gateway

instance : Overlaying ServerOptions where
  fields := [("node_type", Meaning.schema NodeType), ("server_info", Meaning.schema String),
    ("cluster_id", Meaning.schema Int32), ("area_id", Meaning.schema String),
    ("gw_info", Meaning.schema String)]
  Overlays := ServerOptions.Overlay

/-- Without a server section a node is no server. -/
structure NodeOptions.Overlay (j : Json) (o : NodeOptions) : Prop where
  name : Overlaid (Record.fields NodeOptions) j "name" "agora-node" o.name
  directoryAddress :
    Overlaid (Record.fields NodeOptions) j "directory_addr" "127.0.0.1:9990" o.directoryAddress
  channelTypes : Overlaid (Record.fields NodeOptions) j "channel_types" [] o.channelTypes
  server : Overlaid (Record.fields NodeOptions) j "server" none o.server

instance : Overlaying NodeOptions where
  fields := [("name", Meaning.schema String), ("directory_addr", Meaning.schema String),
    ("channel_types", Meaning.schema (List UInt32)), ("server", Meaning.schema ServerOptions)]
  Overlays := NodeOptions.Overlay

structure KeepAliveOptions.Overlay (j : Json) (o : KeepAliveOptions) : Prop where
  longestBackoffSeconds :
    Overlaid (Record.fields KeepAliveOptions) j "max_backoff_secs" 300 o.longestBackoffSeconds
  jitter : Overlaid (Record.fields KeepAliveOptions) j "jitter" 0.1 o.jitter
  serverChangeWaitSeconds : Overlaid (Record.fields KeepAliveOptions) j "server_change_wait_secs" 30
    o.serverChangeWaitSeconds

instance : Overlaying KeepAliveOptions where
  fields := [("max_backoff_secs", Meaning.schema UInt64), ("jitter", Meaning.schema Float),
    ("server_change_wait_secs", Meaning.schema UInt64)]
  Overlays := KeepAliveOptions.Overlay

structure ExchangeOptions.Overlay (j : Json) (o : ExchangeOptions) : Prop where
  address : Overlaid (Record.fields ExchangeOptions) j "server_addr" "" o.address
  callTimeoutSeconds :
    Overlaid (Record.fields ExchangeOptions) j "call_timeout_secs" 10 o.callTimeoutSeconds

instance : Overlaying ExchangeOptions where
  fields := [("server_addr", Meaning.schema String), ("call_timeout_secs", Meaning.schema UInt64)]
  Overlays := ExchangeOptions.Overlay

structure Configuration.Overlay (j : Json) (c : Configuration) : Prop where
  node : Overlaid (Record.fields Configuration) j "node" .standard c.node
  keepAlive : Overlaid (Record.fields Configuration) j "keepalive" .standard c.keepAlive
  exchange : Overlaid (Record.fields Configuration) j "exchange" .standard c.exchange

instance : Overlaying Configuration where
  fields := [("node", Meaning.schema NodeOptions), ("keepalive", Meaning.schema KeepAliveOptions),
    ("exchange", Meaning.schema ExchangeOptions)]
  Overlays := Configuration.Overlay

/-! ### Reading them -/

/-- A chain of fields fails where one of them does. -/
theorem bind_eq_none_iff_or {α β : Type} {o : Option α} {f : α → Option β} {here later : Prop}
    (first : o = none ↔ here) (rest : ∀ a, f a = none ↔ later) :
    o.bind f = none ↔ here ∨ later := by
  rw [← first]
  cases o with
  | none => simp
  | some a => simp [rest]

instance : LawfulOverlaying ServerOptions where
  names := rfl
  distinct := by decide
  overlays_iff exposes o := by
    simp only [Record.read?, Option.bind_eq_bind, Option.bind_eq_some_iff,
      withDefault_eq_some_iff exposes, Option.some.injEq]
    constructor
    · rintro ⟨_, nodeType, _, address, _, cluster, _, area, _, gateway, rfl⟩
      exact ⟨nodeType, address, cluster, area, gateway⟩
    · rintro ⟨nodeType, address, cluster, area, gateway⟩
      exact ⟨_, nodeType, _, address, _, cluster, _, area, _, gateway, rfl⟩
  faulty_iff exposes := by
    simp only [Record.read?, Option.bind_eq_bind]
    rw [bind_eq_none_iff_or (withDefault_eq_none_iff exposes _ _) fun _ =>
      bind_eq_none_iff_or (withDefault_eq_none_iff exposes _ _) fun _ =>
      bind_eq_none_iff_or (withDefault_eq_none_iff exposes _ _) fun _ =>
      bind_eq_none_iff_or (withDefault_eq_none_iff exposes _ _) fun _ =>
      bind_eq_none_iff_or (withDefault_eq_none_iff exposes _ _) fun _ =>
      iff_false_intro (Option.some_ne_none _)]
    simp [Overlaying.fields]

instance : LawfulOverlaying NodeOptions where
  names := rfl
  distinct := by decide
  overlays_iff exposes o := by
    simp only [Record.read?, Option.bind_eq_bind, Option.bind_eq_some_iff,
      withDefault_eq_some_iff exposes, optional_eq_some_iff exposes, Option.some.injEq]
    constructor
    · rintro ⟨_, name, _, directory, _, channels, _, server, rfl⟩
      exact ⟨name, directory, channels, server⟩
    · rintro ⟨name, directory, channels, server⟩
      exact ⟨_, name, _, directory, _, channels, _, server, rfl⟩
  faulty_iff exposes := by
    simp only [Record.read?, Option.bind_eq_bind]
    rw [bind_eq_none_iff_or (withDefault_eq_none_iff exposes _ _) fun _ =>
      bind_eq_none_iff_or (withDefault_eq_none_iff exposes _ _) fun _ =>
      bind_eq_none_iff_or (withDefault_eq_none_iff exposes _ _) fun _ =>
      bind_eq_none_iff_or (optional_eq_none_iff exposes _) fun _ =>
      iff_false_intro (Option.some_ne_none _)]
    simp [Overlaying.fields]

instance : LawfulOverlaying KeepAliveOptions where
  names := rfl
  distinct := by decide
  overlays_iff exposes o := by
    simp only [Record.read?, Option.bind_eq_bind, Option.bind_eq_some_iff,
      withDefault_eq_some_iff exposes, Option.some.injEq]
    constructor
    · rintro ⟨_, backoff, _, jitter, _, wait, rfl⟩
      exact ⟨backoff, jitter, wait⟩
    · rintro ⟨backoff, jitter, wait⟩
      exact ⟨_, backoff, _, jitter, _, wait, rfl⟩
  faulty_iff exposes := by
    simp only [Record.read?, Option.bind_eq_bind]
    rw [bind_eq_none_iff_or (withDefault_eq_none_iff exposes _ _) fun _ =>
      bind_eq_none_iff_or (withDefault_eq_none_iff exposes _ _) fun _ =>
      bind_eq_none_iff_or (withDefault_eq_none_iff exposes _ _) fun _ =>
      iff_false_intro (Option.some_ne_none _)]
    simp [Overlaying.fields]

instance : LawfulOverlaying ExchangeOptions where
  names := rfl
  distinct := by decide
  overlays_iff exposes o := by
    simp only [Record.read?, Option.bind_eq_bind, Option.bind_eq_some_iff,
      withDefault_eq_some_iff exposes, Option.some.injEq]
    constructor
    · rintro ⟨_, address, _, timeout, rfl⟩
      exact ⟨address, timeout⟩
    · rintro ⟨address, timeout⟩
      exact ⟨_, address, _, timeout, rfl⟩
  faulty_iff exposes := by
    simp only [Record.read?, Option.bind_eq_bind]
    rw [bind_eq_none_iff_or (withDefault_eq_none_iff exposes _ _) fun _ =>
      bind_eq_none_iff_or (withDefault_eq_none_iff exposes _ _) fun _ =>
      iff_false_intro (Option.some_ne_none _)]
    simp [Overlaying.fields]

instance : LawfulOverlaying Configuration where
  names := rfl
  distinct := by decide
  overlays_iff exposes o := by
    simp only [Record.read?, Option.bind_eq_bind, Option.bind_eq_some_iff,
      withDefault_eq_some_iff exposes, Option.some.injEq]
    constructor
    · rintro ⟨_, node, _, keepAlive, _, exchange, rfl⟩
      exact ⟨node, keepAlive, exchange⟩
    · rintro ⟨node, keepAlive, exchange⟩
      exact ⟨_, node, _, keepAlive, _, exchange, rfl⟩
  faulty_iff exposes := by
    simp only [Record.read?, Option.bind_eq_bind]
    rw [bind_eq_none_iff_or (withDefault_eq_none_iff exposes _ _) fun _ =>
      bind_eq_none_iff_or (withDefault_eq_none_iff exposes _ _) fun _ =>
      bind_eq_none_iff_or (withDefault_eq_none_iff exposes _ _) fun _ =>
      iff_false_intro (Option.some_ne_none _)]
    simp [Overlaying.fields]

/-! ### The file -/

namespace Configuration

/-- The document in a file: its bytes can be read, are UTF-8, and hold a table. -/
def document? (contents : Option (List UInt8)) : Option Json := do
  let bytes ← contents
  let text ← String.fromUTF8? bytes.toByteArray
  Toml.read? text.toList

variable {contents : Option (List UInt8)} {document : Json}

theorem tabular_of_document? (found : document? contents = some document) :
    document.Tabular := by
  obtain ⟨bytes, -, found⟩ := Option.bind_eq_some_iff.mp found
  obtain ⟨text, -, found⟩ := Option.bind_eq_some_iff.mp found
  exact (Toml.read?_tabular found).2

theorem ofFile_of_document? (found : document? contents = some document) :
    ofFile contents = (decode? .document document).getD standard :=
  congrArg (fun d : Option Json => (d.map ofDocument).getD standard) found

theorem ofFile_of_no_document (missing : document? contents = none) :
    ofFile contents = standard :=
  congrArg (fun d : Option Json => (d.map ofDocument).getD standard) missing

/-- A file configures what its document means. If there is no document, or if any known field of it
is at fault, it is exactly the defaults that stand. -/
theorem ofFile_is_overlay_or_standard (contents : Option (List UInt8)) :
    match document? contents with
    | none => ofFile contents = standard
    | some document =>
      (Faulty (Meaning.schema Configuration) document ∧ ofFile contents = standard) ∨
      (¬ Faulty (Meaning.schema Configuration) document ∧
        ∀ c : Configuration, Means document c ↔ c = ofFile contents) := by
  cases found : document? contents with
  | none => exact ofFile_of_no_document found
  | some document =>
    have tabular := tabular_of_document? found
    have faulty := (agrees (α := Configuration)).faulty_iff tabular
    have means := (agrees (α := Configuration)).means_iff tabular
    rw [ofFile_of_document? found]
    cases read : (decode? .document document : Option Configuration) with
    | none => exact .inl ⟨faulty.mp read, rfl⟩
    | some c =>
      refine .inr ⟨fun isFaulty => ?_, fun other => ?_⟩
      · rw [faulty.mpr isFaulty] at read
        cases read
      · rw [← means, read, Option.some.injEq, Option.getD_some, eq_comm]

/-- A section that is no table, but a list of what its fields are to be. -/
def addressInPlace : String := "exchange = [\"a:1\"]"

theorem document?_toUTF8 (text : String) :
    document? (some text.toUTF8.toList) = Toml.read? text.toList := by
  have bytes := toList_toUTF8 text.toList
  rw [String.ofList_toList] at bytes
  simp only [document?, Option.bind_eq_bind, Option.bind_some, bytes, fromUTF8?_utf8]

/-- Such a list is no fault: its first item is taken for the address. -/
theorem address_in_place_is_configured :
    document? (some addressInPlace.toUTF8.toList) =
        some (.object [("exchange", .array [.string "a:1"])]) ∧
      (ofFile (some addressInPlace.toUTF8.toList)).exchange = ⟨"a:1", 10⟩ ∧
      standard.exchange = ⟨"", 10⟩ := by
  have document : document? (some addressInPlace.toUTF8.toList) =
      some (.object [("exchange", .array [.string "a:1"])]) := by
    rw [document?_toUTF8]
    cbv
  have configured : decode? .document (.object [("exchange", .array [.string "a:1"])]) =
      some (⟨.standard, .standard, ⟨"a:1", 10⟩⟩ : Configuration) := rfl
  refine ⟨document, ?_, rfl⟩
  rw [ofFile_of_document? document, configured]
  rfl

end Configuration

end ExchangeNode
