import ExchangeNode.Proofs.Wire.Layouts
import ExchangeNode.Proofs.Wire.Message

/-!
# Messages in other words

A message that a peer of another version has written in its own words is the same message: the
envelope and every record in it may be in another order, without fields that hold their defaults,
and with fields added. The type, the method or record and the content are looked up by name in one
object, so none of them is disturbed by what the others add. `ofBytes?_of_restates` says this of all
messages and all bytes; what is added has to be sound, for a message has no room for a garbled
value.
-/

namespace ExchangeNode

open Layout

/-! ### The layout of a message -/

namespace Method

def argumentLayout : Method → Layout
  | .register => Laid.layout Registration
  | .unregister => Laid.layout Identity
  | .keepAlive => Laid.layout Heartbeat
  | .queryNode => Laid.layout Int32
  | .notify side => Laid.layout (Advert side)
  | .propose side => Laid.layout (Advert side)
  | .select _ => Laid.layout Selection
  | .confirm => Laid.layout Selection
  | .send => Laid.layout BusMessage
  | .closeBus => Laid.layout Bus
  | .createBus => Laid.layout BusOptions
  | .busState => Laid.layout Bus
  | .subscribe _ => Laid.layout Channel
  | .subscribeBus => Laid.layout Bus

end Method

namespace ResponseKind

def layouts : ResponseKind → List (String × Layout × Option Json)
  | .identity => [("identity", needed Identity)]
  | .registration => [("info", needed Registration)]
  | .heartbeat => [("response", needed HeartbeatReply)]
  | .ack => [("ack", needed Ack)]
  | .confirmation => [("response", needed Confirmation)]
  | .bus => [("mbus", needed Bus)]
  | .busState => [("state", needed BusState)]
  | .error => [("code", needed Int32), ("message", needed String)]

end ResponseKind

namespace ItemKind

def layouts : ItemKind → List (String × Layout × Option Json)
  | .advert side => [(side.name, needed (Advert side))]
  | .message => [("msg", needed BusMessage)]
  | .finish => []

end ItemKind

namespace Message

/-- The fields of a message are those of its envelope and those of its content. -/
def fields (m : Message) : List (String × Layout × Option Json) :=
  ("id", needed UInt64) :: ("type", needed BodyKind) :: match m.body with
  | .request request =>
    [("method", needed Method),
      (request.method.argumentName, request.method.argumentLayout, none)]
  | .response response => ("method", needed ResponseKind) :: response.kind.layouts
  | .item item => ("record", needed ItemKind) :: item.kind.layouts

def layout (m : Message) : Layout := .record m.fields

end Message

/-! ### The content -/

theorem Response.names_members (r : Response) : r.members.map (·.1) = r.kind.fields := by
  cases r <;> rfl

theorem Item.names_members (item : Item) : item.members.map (·.1) = item.kind.fields := by
  cases item <;> rfl

theorem request?_of_restates (r : Request) {j : Json}
    (restates : Restates r.method.argumentLayout r.argument j) :
    r.method.request? .message j = some r := by
  cases r <;> simp [Request.method, Method.request?, decode?_of_restates _ restates]

namespace Message

variable {m : Message} {restated : List (String × Json)}

theorem lookup_argument (id : UInt64) (r : Request) :
    (fields ⟨id, .request r⟩).lookup r.method.argumentName =
      some (r.method.argumentLayout, none) := by
  cases r with
  | @notify side _ | @propose side _ => cases side <;> rfl
  | _ => rfl

theorem read?_of_reads_response {id : UInt64} {r : Response}
    (reads : Reads (fields ⟨id, .response r⟩) (members ⟨id, .response r⟩) restated) :
    r.kind.read? .message (fun name => restated.lookup name) = some r := by
  have shown : ∀ member ∈ r.members, Shown (fields ⟨id, .response r⟩)
      (fun name => restated.lookup name) member.1 member.2 :=
    fun member isMember => reads.shown member (by simp [members, isMember])
  cases r with
  | error code message =>
    simp only [Response.members, List.forall_mem_cons] at shown
    obtain ⟨code, message, -⟩ := shown
    simp [Response.kind, ResponseKind.read?, required_of_shown code rfl,
      required_of_shown message rfl]
  | _ =>
    simp only [Response.members, List.forall_mem_cons] at shown
    simp [Response.kind, ResponseKind.read?, required_of_shown shown.1 rfl]

theorem read?_of_reads_item {id : UInt64} {item : Item}
    (reads : Reads (fields ⟨id, .item item⟩) (members ⟨id, .item item⟩) restated) :
    item.kind.read? .message (fun name => restated.lookup name) = some item := by
  have shown : ∀ member ∈ item.members, Shown (fields ⟨id, .item item⟩)
      (fun name => restated.lookup name) member.1 member.2 :=
    fun member isMember => reads.shown member (by simp [members, isMember])
  cases item with
  | finish => rfl
  | @advert side _ =>
    simp only [Item.members, List.forall_mem_cons] at shown
    cases side <;> simp [Item.kind, ItemKind.read?, required_of_shown shown.1 rfl]
  | message =>
    simp only [Item.members, List.forall_mem_cons] at shown
    simp [Item.kind, ItemKind.read?, required_of_shown shown.1 rfl]

/-! ### The object -/

theorem known_of_names (reads : Reads m.fields m.members restated) {names : List String}
    (subset : names ⊆ m.members.map (·.1)) : ∀ name ∈ names, (m.fields.lookup name).isSome := by
  intro name isName
  obtain ⟨member, isMember, rfl⟩ := List.mem_map.mp (subset isName)
  obtain ⟨layout, spare, known, -⟩ := reads.shown member isMember
  rw [known]
  rfl

theorem tag?_of_reads {α : Type} [Choice α] [LawfulChoice α]
    (reads : Reads m.fields m.members restated) {name : String} {a : α}
    (member : (name, encode a) ∈ m.members) (known : m.fields.lookup name = some (needed α)) :
    tag? (.object restated) name = some a := by
  have isName : [name] ⊆ m.members.map (·.1) :=
    List.cons_subset.mpr ⟨List.mem_map_of_mem member, List.nil_subset _⟩
  obtain ⟨tag, found, same⟩ := (reads.shown _ member).of_needed known
  cases same
  simp only [tag?, reads.of? (known_of_names reads isName), Option.bind_some, found]
  exact LawfulChoice.ofName?_name a

/-- The body is found under the kind of its content, whatever else there is. -/
theorem readBody?_of_reads (reads : Reads m.fields m.members restated) :
    ∃ kind : BodyKind, ("type", encode kind) ∈ m.members ∧
      readBody? (.object restated) kind = some m.body := by
  rcases m with ⟨id, request | response | item⟩
  -- The name of the argument depends on the method, so the method is read first.
  · refine ⟨.request, by simp [members], ?_⟩
    have tag : tag? (.object restated) "method" = some request.method :=
      tag?_of_reads reads (by simp [members]) rfl
    have isMember : (request.method.argumentName, request.argument) ∈
        members ⟨id, .request request⟩ := by simp [members]
    have isName : [request.method.argumentName] ⊆ (members ⟨id, .request request⟩).map (·.1) := by
      simp [members]
    have isRead := reads.of? (known_of_names reads isName)
    obtain ⟨argument, found, same⟩ :=
      (reads.shown _ isMember).of_needed (lookup_argument id request)
    simp only [readBody?, tag, isRead, found, bind, Option.bind, request?_of_restates _ same,
      Option.map_some]
  · refine ⟨.response, by simp [members], ?_⟩
    have tag : tag? (.object restated) "method" = some response.kind :=
      tag?_of_reads reads (by simp [members]) rfl
    have areNames : response.kind.fields ⊆ (members ⟨id, .response response⟩).map (·.1) := by
      rw [← Response.names_members]
      exact List.map_subset _ fun member isMember => by simp [members, isMember]
    have isRead := reads.of? (known_of_names reads areNames)
    simp only [readBody?, tag, isRead, bind, Option.bind, read?_of_reads_response reads,
      Option.map_some]
  · refine ⟨.item, by simp [members], ?_⟩
    have tag : tag? (.object restated) "record" = some item.kind :=
      tag?_of_reads reads (by simp [members]) rfl
    have areNames : item.kind.fields ⊆ (members ⟨id, .item item⟩).map (·.1) := by
      rw [← Item.names_members]
      exact List.map_subset _ fun member isMember => by simp [members, isMember]
    have isRead := reads.of? (known_of_names reads areNames)
    simp only [readBody?, tag, isRead, bind, Option.bind, read?_of_reads_item reads,
      Option.map_some]

/-- A message in other words is that message, if all that was added is sound. -/
theorem ofJson?_of_restates {j : Json} (restates : Restates m.layout m.toJson j) :
    ofJson? j = some m ↔ j.sound nesting := by
  constructor
  · intro read
    by_contra unsound
    simp [ofJson?, unsound] at read
  · intro sound
    obtain ⟨restated, rfl, reads⟩ := reads_of_restates m.distinct_members restates
    have isName : ["id"] ⊆ m.members.map (·.1) := by simp [members]
    have envelope := reads.of? (known_of_names reads isName)
    have id := required_of_shown (reads.shown ("id", encode m.id) List.mem_cons_self) rfl
    obtain ⟨kind, isMember, body⟩ := readBody?_of_reads reads
    exact ofJson?_of_parts rfl sound envelope id (tag?_of_reads reads isMember rfl) body

/-- Bytes that say a message in other words are read as that message exactly when they hold nothing
garbled and nest no deeper than is allowed: whatever its order, without fields that hold their
defaults, and with anything added under names that are not in use. -/
theorem ofBytes?_of_restates (m : Message) (j : Json) (bytes : List UInt8)
    (restates : Restates m.layout m.toJson j) (read : Json.read? bytes = some j) :
    ofBytes? bytes = some m ↔ j.sound nesting := by
  rw [ofBytes?, read, Option.bind_some]
  exact ofJson?_of_restates restates

def accepted : Message := ⟨7, .response (.ack ⟨true, ""⟩)⟩

/-- An accepted call as another version may write it: backwards, without the empty reason, and with
a field added to the message and another one to the record in it. -/
def acceptedInOtherWords : String :=
  "\x7b\"more\":[null],\"ack\":\x7b\"since\":\x7b\"ok\":1\x7d,\"ok\":true\x7d," ++
    "\"method\":\"ack\",\"type\":\"response\",\"id\":7\x7d"

theorem ofBytes?_of_acceptedInOtherWords :
    ∃ j, Restates accepted.layout accepted.toJson j ∧
      Json.read? acceptedInOtherWords.toUTF8.toList = some j ∧
      ofBytes? acceptedInOtherWords.toUTF8.toList = some accepted := by
  have since : ∀ member ∈ [("since", Json.object [("ok", .integer 1)])],
      (LaidRecord.fields Ack).lookup member.1 = none := List.forall_mem_singleton.mpr rfl
  have ack : Restates (Laid.layout Ack) (encode (⟨true, ""⟩ : Ack))
      (.object [("since", .object [("ok", .integer 1)]), ("ok", .boolean true)]) :=
    .record (.kept rfl (.plain _) (.leftOut rfl .nil)) since (.swap _ _ _)
  have keeps : Keeps Restates accepted.layout accepted.members
      [("id", .integer 7), ("type", .string "response"), ("method", .string "ack"),
        ("ack", .object [("since", .object [("ok", .integer 1)]), ("ok", .boolean true)])] :=
    .kept rfl (.plain _) (.kept rfl (.plain _) (.kept rfl (.plain _) (.kept rfl ack .nil)))
  have more : ∀ member ∈ [("more", Json.array [.null])],
      accepted.fields.lookup member.1 = none := List.forall_mem_singleton.mpr rfl
  have restates := Restates.record keeps more (List.reverse_perm _)
  have read : Json.read? acceptedInOtherWords.toUTF8.toList = some
      (.object [("more", .array [.null]),
        ("ack", .object [("since", .object [("ok", .integer 1)]), ("ok", .boolean true)]),
        ("method", .string "ack"), ("type", .string "response"), ("id", .integer 7)]) := by cbv
  exact ⟨_, restates, read, (ofBytes?_of_restates accepted _ _ restates read).mpr (by decide)⟩

/-- A query, with a text added that is no Unicode text. -/
def queryWithUnpaired : String :=
  "\x7b\"id\":1,\"type\":\"request\",\"method\":\"query_node\",\"node_id\":7," ++
    "\"x\":\"\\ud800\"\x7d"

/-- It is refused, though what was added is well formed and stands under a name not in use. -/
theorem queryWithUnpaired_is_refused :
    let m : Message := ⟨1, .request (.queryNode 7)⟩
    let j : Json := .object [("id", .integer 1), ("type", .string "request"),
      ("method", .string "query_node"), ("node_id", .integer 7), ("x", .garbled)]
    Json.read? queryWithUnpaired.toUTF8.toList = some j ∧ Restates m.layout m.toJson j ∧
      ofBytes? queryWithUnpaired.toUTF8.toList = none := by
  intro m j
  have read : Json.read? queryWithUnpaired.toUTF8.toList = some (.object [("id", .integer 1),
      ("type", .string "request"), ("method", .string "query_node"), ("node_id", .integer 7),
      ("x", .garbled)]) := by cbv
  have keeps : Keeps Restates m.layout m.members m.members :=
    .kept rfl (.plain _) (.kept rfl (.plain _) (.kept rfl (.plain _)
      (.kept rfl (.plain _) .nil)))
  have added : ∀ member ∈ [("x", Json.garbled)], m.fields.lookup member.1 = none :=
    List.forall_mem_singleton.mpr rfl
  refine ⟨read, .record keeps added (.refl _), ?_⟩
  rw [ofBytes?, read]
  rfl

end Message

end ExchangeNode
