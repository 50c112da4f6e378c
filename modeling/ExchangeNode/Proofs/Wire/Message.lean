import ExchangeNode.Proofs.Wire.Records
import ExchangeNode.Wire.Frame

/-!
# Messages read back

A message is one flat object, and no two of its names are the same: neither the names of the
envelope nor that of the content. So each of the three looks that reading takes at it finds what was
written, and a message is what its bytes say it is, as long as the real numbers in it are found
again in their texts.
-/

namespace ExchangeNode

open Json (Readable)

open Fields (required_of_eq)

instance : LawfulChoice BodyKind where
  ofName?_name a := by cases a <;> decide

instance : LawfulChoice ResponseKind where
  ofName?_name a := by cases a <;> decide

instance : LawfulChoice ItemKind where
  ofName?_name a := by
    cases a with
    | advert side => cases side <;> decide
    | _ => decide

instance : LawfulChoice Method where
  ofName?_name a := by
    cases a with
    | notify side | propose side | select side | subscribe side => cases side <;> decide
    | _ => decide

/-! ### The content -/

theorem request?_argument (r : Request) : r.method.request? .message r.argument = some r := by
  cases r <;> simp [Request.method, Request.argument, Method.request?]

theorem Response.read?_of_held (r : Response) (fields : Fields)
    (held : ∀ member ∈ r.members, fields member.1 = some member.2) :
    r.kind.read? .message fields = some r := by
  cases r with
  | error code message =>
    simp only [Response.members, List.forall_mem_cons] at held
    obtain ⟨code, message, -⟩ := held
    simp [Response.kind, ResponseKind.read?, required_of_eq code, required_of_eq message]
  | _ =>
    simp only [Response.members, List.forall_mem_cons] at held
    simp [Response.kind, ResponseKind.read?, required_of_eq held.1]

theorem Item.read?_of_held (item : Item) (fields : Fields)
    (held : ∀ member ∈ item.members, fields member.1 = some member.2) :
    item.kind.read? .message fields = some item := by
  cases item with
  | finish => rfl
  | _ =>
    simp only [Item.members, List.forall_mem_cons] at held
    simp [Item.kind, ItemKind.read?, required_of_eq held.1]

namespace Message

/-! ### The object -/

theorem distinct_members (m : Message) : (m.members.map (·.1)).Nodup := by
  rcases m with ⟨id, request | response | item⟩
  · cases request with
    | @notify side _ | @propose side _ =>
      cases side <;> simp [members, Request.method, Method.argumentName, Side.name]
    | _ => simp [members, Request.method, Method.argumentName]
  · cases response <;> simp [members, Response.members]
  · cases item with
    | @advert side _ => cases side <;> simp [members, Item.members, Side.name]
    | _ => simp [members, Item.members]

theorem tag?_of_mem {α : Type} [Choice α] [LawfulChoice α] {members : List (String × Json)}
    (distinct : (members.map (·.1)).Nodup) {name : String} {a : α}
    (member : (name, encode a) ∈ members) : tag? (.object members) name = some a := by
  simp only [tag?, Fields.of?_object distinct, Option.bind_some, lookup_of_mem distinct member]
  exact LawfulChoice.ofName?_name a

/-- The body is found under the kind of its content. -/
theorem readBody?_toJson (m : Message) :
    ∃ kind : BodyKind, ("type", encode kind) ∈ m.members ∧
      readBody? m.toJson kind = some m.body := by
  have distinct := m.distinct_members
  have found : ∀ member ∈ m.members, m.members.lookup member.1 = some member.2 :=
    fun member isMember => lookup_of_mem distinct isMember
  -- The tag of the content stands beside that of the body, and so do the fields of the content.
  rcases m with ⟨id, request | response | item⟩
  · refine ⟨.request, by simp [members], ?_⟩
    have tag : tag? (.object (members ⟨id, .request request⟩)) "method" = some request.method :=
      tag?_of_mem distinct (by simp [members])
    have argument := found (request.method.argumentName, request.argument) (by simp [members])
    simp only [readBody?, toJson, tag, Fields.of?_object distinct, argument, bind, Option.bind,
      request?_argument, Option.map_some]
  · refine ⟨.response, by simp [members], ?_⟩
    have tag : tag? (.object (members ⟨id, .response response⟩)) "method" = some response.kind :=
      tag?_of_mem distinct (by simp [members])
    have content := Response.read?_of_held response
      (fun name => (members ⟨id, .response response⟩).lookup name)
      fun member isMember => found member (by simp [members, isMember])
    simp only [readBody?, toJson, tag, Fields.of?_object distinct, bind, Option.bind, content,
      Option.map_some]
  · refine ⟨.item, by simp [members], ?_⟩
    have tag : tag? (.object (members ⟨id, .item item⟩)) "record" = some item.kind :=
      tag?_of_mem distinct (by simp [members])
    have content := Item.read?_of_held item (fun name => (members ⟨id, .item item⟩).lookup name)
      fun member isMember => found member (by simp [members, isMember])
    simp only [readBody?, toJson, tag, Fields.of?_object distinct, bind, Option.bind, content,
      Option.map_some]

theorem ofJson?_of_parts {j : Json} {m : Message} {fields : Fields} {kind : BodyKind}
    (object : isObject j = true) (sound : j.sound nesting = true)
    (envelope : Fields.of? .message ["id"] j = some fields)
    (id : fields.required .message "id" = some m.id) (tag : tag? j "type" = some kind)
    (body : readBody? j kind = some m.body) : ofJson? j = some m := by
  simp only [ofJson?, object, sound, Bool.and_self, if_true, envelope, id, tag, body, bind,
    Option.bind]

/-- A message is read back from its object. -/
theorem ofJson?_toJson {m : Message} (sound : m.toJson.sound nesting = true) :
    ofJson? m.toJson = some m := by
  have distinct := m.distinct_members
  have first : m.members.lookup "id" = some (encode m.id) :=
    lookup_of_mem distinct (by simp [members])
  obtain ⟨kind, isMember, body⟩ := m.readBody?_toJson
  exact ofJson?_of_parts rfl sound (Fields.of?_object distinct _ _)
    (required_of_eq first _) (tag?_of_mem distinct isMember) body

/-! ### The bytes -/

/-- The load report in a message, if it has one. -/
def load? (m : Message) : Option LoadReport :=
  match m.body with
  | .request (.keepAlive heartbeat) => heartbeat.load
  | _ => none

/-- The real numbers in a message are found again in their texts. -/
def Rereads (m : Message) : Prop := ∀ load, m.load? = some load → load.Rereads

instance (m : Message) : Decidable m.Rereads :=
  decidable_of_iff (∀ load ∈ m.load?, load.Rereads) (by simp [Rereads, Option.mem_def])

variable {depth : Nat}

theorem readable_argument {id : UInt64} {r : Request}
    (rereads : Rereads ⟨id, .request r⟩) : Readable (depth + 3) r.argument := by
  cases r with
  | keepAlive heartbeat => exact readable_heartbeat rereads
  | _ => exact readable_encode _

theorem readable_of_mem_response {r : Response} {member : String × Json}
    (isMember : member ∈ r.members) : Readable (depth + 3) member.2 := by
  revert member
  cases r <;> simp [Response.members, readable_encode]

theorem readable_of_mem_item {item : Item} {member : String × Json}
    (isMember : member ∈ item.members) : Readable (depth + 3) member.2 := by
  revert member
  cases item <;> simp [Item.members, readable_encode]

theorem readable_toJson {m : Message} (rereads : m.Rereads) : Readable nesting m.toJson := by
  refine .object (List.forall_mem_cons.mpr ⟨readable_encode m.id, ?_⟩)
  rcases m with ⟨id, request | response | item⟩
  · simp only [List.forall_mem_cons]
    exact ⟨readable_encode _, readable_encode _, readable_argument rereads,
      List.forall_mem_nil _⟩
  · simp only [List.forall_mem_append, List.forall_mem_cons]
    exact ⟨⟨readable_encode _, readable_encode _, List.forall_mem_nil _⟩,
      fun _ => readable_of_mem_response⟩
  · simp only [List.forall_mem_append, List.forall_mem_cons]
    exact ⟨⟨readable_encode _, readable_encode _, List.forall_mem_nil _⟩,
      fun _ => readable_of_mem_item⟩

theorem bytes_eq (m : Message) : m.bytes = m.toJson.render.flatMap String.utf8EncodeChar := by
  rw [bytes, text, Json.text, toList_toUTF8]

/-- The object of a message is read back from the bytes of the message. -/
theorem read?_bytes {m : Message} (rereads : m.Rereads) : Json.read? m.bytes = some m.toJson :=
  Json.read?_text (readable_toJson rereads)

/-- A message is read back from its bytes. -/
theorem ofBytes?_bytes {m : Message} (rereads : m.Rereads) : ofBytes? m.bytes = some m := by
  rw [ofBytes?, read?_bytes rereads, Option.bind_some]
  exact ofJson?_toJson (Json.sound_of_readable (readable_toJson rereads))

/-- What follows the length on a connection is read back as the message that was put there. -/
theorem ofBytes?_write {m : Message} (rereads : m.Rereads) :
    ofBytes? (m.write.drop 4) = some m :=
  ofBytes?_bytes rereads

/-- A heartbeat with the largest numbers, an escaped text and a load report. -/
theorem ofBytes?_write_heartbeat :
    let load : LoadReport := ⟨0.1, 99.75, 18446744073709551615⟩
    let m : Message := ⟨18446744073709551615, .request (.keepAlive
      ⟨-2147483648, 9007199254740993, 1, 2147483647, "\"up\"\n\\ é", some load⟩)⟩
    m.Rereads ∧ ofBytes? (m.write.drop 4) = some m := by
  intro load m
  -- Whether the two loads are found again is computed from their texts.
  have rereads : m.Rereads := by decide +kernel
  exact ⟨rereads, ofBytes?_write rereads⟩

end Message

end ExchangeNode
