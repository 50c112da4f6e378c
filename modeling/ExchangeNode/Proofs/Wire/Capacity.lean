import ExchangeNode.Proofs.Wire.Framing

/-!
# Messages too long to be read

Any message can be written, but only one whose bytes are within the limit is read again. A longer one
is refused at sight, unless its length has no room in the four bytes of a header: then the header
gives what is left of the length, and the reader takes so many bytes for the whole message. They are
never one, since a beginning of an object is no JSON text.
-/

namespace ExchangeNode

/-! ### Beginnings of an object -/

namespace Json

namespace Reader

variable {r next : Reader} {b : UInt8}

/-- The text is over, unless blanks or more of a word follow. -/
inductive Over : Reader → Prop where
  | finished (value : Json) : Over ⟨[], .finished value⟩
  | word (bytes : List UInt8) : Over ⟨[], .word bytes⟩

theorem over_of_result? {value : Json} (result : r.result? = some value) : Over r := by
  rcases r with ⟨_ | _, expect⟩
  · cases expect with
    | finished value => exact .finished value
    | word bytes => exact .word bytes
    | _ => cases result
  · cases result

theorem after_finished {value : Json} {c : Char}
    (goesOn : after ⟨[], .finished value⟩ c = some next) :
    isBlank c ∧ next = ⟨[], .finished value⟩ := by
  unfold after at goesOn
  split at goesOn
  · next blank => exact ⟨blank, (Option.some.inj goesOn).symm⟩
  · dsimp only at goesOn
    split at goesOn <;> simp_all [closeArray?, closeObject?]

/-- Whatever the reader takes then, it leaves the text over, and it takes no closing brace. -/
theorem step_of_over (isOver : Over r) (goesOn : r.step b = some next) :
    Over next ∧ asChar b ≠ '}' := by
  have notBrace {c : Char} (blank : isBlank c) : c ≠ '}' := by
    rintro rfl
    revert blank
    decide
  cases isOver with
  | finished value =>
    obtain ⟨blank, rfl⟩ := after_finished goesOn
    exact ⟨.finished value, notBrace blank⟩
  | word bytes =>
    simp only [step] at goesOn
    split at goesOn
    · next isWord =>
      obtain rfl := Option.some.inj goesOn
      refine ⟨.word _, ?_⟩
      rintro brace
      rw [brace] at isWord
      revert isWord
      decide
    · obtain ⟨value, -, goesOn⟩ := Option.bind_eq_some_iff.mp goesOn
      obtain ⟨blank, rfl⟩ := after_finished goesOn
      exact ⟨.finished value, notBrace blank⟩

theorem run_of_over {bytes : List UInt8} (isOver : Over r) (goesOn : r.run bytes = some next) :
    ∀ b ∈ bytes, asChar b ≠ '}' := by
  induction bytes generalizing r with
  | nil => nofun
  | cons b rest ih =>
    obtain ⟨between, first, later⟩ := Option.bind_eq_some_iff.mp goesOn
    obtain ⟨stillOver, notBrace⟩ := step_of_over isOver first
    exact List.forall_mem_cons.mpr ⟨notBrace, ih stillOver later⟩

end Reader

/-- Bytes that a closing brace follows somewhere in a text are no text. -/
theorem read?_beginning {first rest : List UInt8} {value : Json}
    (whole : read? (first ++ rest) = some value) {b : UInt8} (member : b ∈ rest)
    (brace : asChar b = '}') : read? first = none := by
  rw [read?, Reader.run_append] at whole
  obtain ⟨last, goesOn, -⟩ := Option.bind_eq_some_iff.mp whole
  obtain ⟨middle, begun, goesOn⟩ := Option.bind_eq_some_iff.mp goesOn
  rw [read?, begun, Option.bind_some, Option.eq_none_iff_forall_ne_some]
  intro value result
  exact Reader.run_of_over (Reader.over_of_result? result) goesOn b member brace

theorem renderMembers_concat (members : List (String × Json)) (last : String × Json) :
    renderMembers (members ++ [last]) =
      (members.flatMap fun member => quote member.1 ++ ':' :: render member.2 ++ [',']) ++
        (quote last.1 ++ ':' :: render last.2 ++ ['}']) := by
  match members with
  | [] => rfl
  | [first] => simp [renderMembers]
  | first :: second :: rest =>
    have later := renderMembers_concat (second :: rest) last
    simp only [List.cons_append] at later
    simp [renderMembers, later]

theorem exists_renderMembers (members : List (String × Json)) :
    ∃ cs, renderMembers members = cs ++ ['}'] := by
  rcases List.eq_nil_or_concat members with rfl | ⟨before, last, rfl⟩
  · exact ⟨[], rfl⟩
  · rw [List.concat_eq_append, renderMembers_concat, ← List.append_assoc]
    exact ⟨_, rfl⟩

end Json

namespace Message

variable {m : Message}

theorem exists_bytes (m : Message) : ∃ before : List UInt8, m.bytes = before ++ [125] := by
  obtain ⟨cs, last⟩ := Json.exists_renderMembers m.members
  refine ⟨('{' :: cs).flatMap String.utf8EncodeChar, ?_⟩
  rw [bytes_eq, toJson, Json.render, last, ← List.cons_append, List.flatMap_append]
  rfl

/-- The beginning of a message is none. -/
theorem ofBytes?_take (rereads : m.Rereads) {count : Nat} (less : count < m.bytes.length) :
    ofBytes? (m.bytes.take count) = none := by
  obtain ⟨before, last⟩ := m.exists_bytes
  have whole : Json.read? (m.bytes.take count ++ m.bytes.drop count) = some m.toJson := by
    rw [List.take_append_drop, read?_bytes rereads]
  have member : 125 ∈ m.bytes.drop count := by
    rw [last, List.length_append, List.length_singleton] at less
    rw [last, List.drop_append_of_le_length (by omega)]
    simp
  rw [ofBytes?, Json.read?_beginning whole member rfl, Option.bind_none]

theorem read_write_of_large (large : Frame.limit < UInt32.ofNat m.bytes.length)
    (rest : List UInt8) :
    read (m.write ++ rest) =
      (.error (.tooLarge (UInt32.ofNat m.bytes.length) Frame.limit), m.bytes ++ rest) := by
  rw [read, write, Frame.next_ofBody_eq, if_pos large]

theorem read_write_of_wrapped (rereads : m.Rereads) (misfit : ¬ m.Fits)
    (small : ¬ Frame.limit < UInt32.ofNat m.bytes.length) (rest : List UInt8) :
    (read (m.write ++ rest)).1 = .error (.malformed "not a message") := by
  have wrapped : m.bytes.length % 2 ^ 32 < m.bytes.length := by
    rw [Fits] at misfit
    rw [UInt32.lt_iff_toNat_lt, UInt32.toNat_ofNat'] at small
    have bound : Frame.limit.toNat < 2 ^ 32 := by decide
    omega
  rw [read, write, Frame.next_ofBody_eq, if_neg small,
    List.take_append_of_le_length (Nat.le_of_lt wrapped)]
  simp only [ofBytes?_take rereads wrapped]

/-- What a reader makes of a message that was written, whatever its size. It is read again just if its
bytes are within the limit. A longer one is written all the same, and refused by the reader. -/
theorem read_written (rereads : m.Rereads) (rest : List UInt8) :
    (read (m.write ++ rest) = (.ok m, rest) ↔ m.Fits) ∧
    (¬ m.Fits → (read (m.write ++ rest)).1 = .error
      (if Frame.limit < UInt32.ofNat m.bytes.length then
        .tooLarge (UInt32.ofNat m.bytes.length) Frame.limit
      else .malformed "not a message")) := by
  have refused (misfit : ¬ m.Fits) : (read (m.write ++ rest)).1 = .error
      (if Frame.limit < UInt32.ofNat m.bytes.length then
        .tooLarge (UInt32.ofNat m.bytes.length) Frame.limit
      else .malformed "not a message") := by
    split
    · next large => rw [read_write_of_large large]
    · next small => exact read_write_of_wrapped rereads misfit small rest
  refine ⟨⟨fun accepted => ?_, fun fits => read_write rereads fits rest⟩, refused⟩
  by_contra misfit
  have := refused misfit
  rw [accepted] at this
  cases this

/-- A message that fits. -/
theorem read_written_query :
    let query : Message := ⟨11, .request (.queryNode 3)⟩
    query.Rereads ∧ query.Fits ∧ read (query.write ++ [0]) = (.ok query, [0]) := by
  intro query
  have rereads : query.Rereads := nofun
  have fits : query.Fits := by decide +kernel
  exact ⟨rereads, fits, (read_written rereads [0]).1.mpr fits⟩

/-- A response whose text is so many times the same letter. -/
def complaint (count : Nat) : Message :=
  ⟨1, .response (.error 0 (String.ofList (List.replicate count 'a')))⟩

/-- What stands before the text in the bytes of such a response. -/
def beforeText : List Char :=
  '{' :: ([("id", encode (1 : UInt64)), ("type", encode BodyKind.response),
      ("method", encode ResponseKind.error), ("code", encode (0 : Int32))].flatMap
    fun member => Json.quote member.1 ++ ':' :: Json.render member.2 ++ [',']) ++
      (Json.quote "message" ++ [':', '"'])

theorem render_complaint (count : Nat) :
    (complaint count).toJson.render = beforeText ++ (List.replicate count 'a' ++ ['"', '}']) := by
  have members : (complaint count).members =
      [("id", encode (1 : UInt64)), ("type", encode BodyKind.response),
        ("method", encode ResponseKind.error), ("code", encode (0 : Int32))] ++
      [("message", .string (String.ofList (List.replicate count 'a')))] := rfl
  have text : Json.render (.string (String.ofList (List.replicate count 'a'))) =
      '"' :: List.replicate count 'a' ++ ['"'] := by
    have plain : Json.escape 'a' = ['a'] := by decide
    rw [Json.render, Json.quote, String.toList_ofList, List.flatMap_replicate, plain,
      List.flatten_replicate_singleton]
  rw [toJson, members, Json.render, Json.renderMembers_concat, text, beforeText]
  simp only [List.append_assoc, List.cons_append, List.nil_append]

theorem length_complaint (count : Nat) : (complaint count).bytes.length = 65 + count := by
  have before : (beforeText.flatMap String.utf8EncodeChar).length = 63 := by decide +kernel
  have letter : String.utf8EncodeChar 'a' = [97] := by decide
  have after : (['"', '}'].flatMap String.utf8EncodeChar).length = 2 := by decide
  rw [bytes_eq, render_complaint, List.flatMap_append, List.flatMap_append, List.length_append,
    List.length_append, before, after, List.flatMap_replicate, letter,
    List.flatten_replicate_singleton, List.length_replicate]
  omega

/-- A response of one byte more than the limit is written, and refused by the reader. -/
theorem read_written_complaint :
    let m := complaint 16777152
    m.Rereads ∧ m.bytes.length = 16777217 ∧ m.write = [1, 0, 0, 1] ++ m.bytes ∧
      read m.write = (.error (.tooLarge 16777217 16777216), m.bytes) := by
  intro m
  have length : m.bytes.length = 16777217 := length_complaint 16777152
  have large : Frame.limit < UInt32.ofNat m.bytes.length := by
    rw [length]
    decide
  refine ⟨rereads_of_response _ _, length, ?_, ?_⟩
  · rw [write, Frame.ofBody, length]
    rfl
  · have refused := read_write_of_large large []
    rw [List.append_nil, List.append_nil, length] at refused
    exact refused

end Message

end ExchangeNode
