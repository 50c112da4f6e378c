import Mathlib
import ExchangeNode.Proofs.Json.Quoted
import ExchangeNode.Proofs.Json.Word

/-!
# Values read back

`Readable` are the values that their text determines: whole numbers fit 64 bits, and a real is one
that its own text leads back to. Reading the text of such a value puts the value into whatever is
open at that point, so arrays and objects follow from what they hold. Only of a word the reader does
not see the end before the next byte; `Taken` allows for that.
-/

namespace ExchangeNode.Json

/-- A real number that is finite and is found again in its text. -/
def Rereads (x : Float) : Prop :=
  ∃ cs, Decimal.render reals x = some cs ∧ number? cs = some (.real x)

def isReal (x : Float) : Json → Bool
  | .real y => y = x
  | _ => false

theorem eq_real_of_isReal {x : Float} {j : Json} (real : isReal x j) : j = .real x := by
  cases j with
  | real y => rw [of_decide_eq_true real]
  | _ => cases real

theorem rereads_iff {x : Float} :
    Rereads x ↔ ((Decimal.render reals x).bind number?).any (isReal x) := by
  constructor
  · rintro ⟨cs, rendered, read⟩
    simp [rendered, read, isReal]
  · intro found
    obtain ⟨j, read, real⟩ := (Option.any_eq_true _ _).mp found
    obtain ⟨cs, rendered, read⟩ := Option.bind_eq_some_iff.mp read
    exact ⟨cs, rendered, eq_real_of_isReal real ▸ read⟩

instance (x : Float) : Decidable (Rereads x) := decidable_of_iff _ rereads_iff.symm

/-- Values that can be read back from their text, and nest at most `depth` arrays and objects. -/
inductive Readable : Nat → Json → Prop where
  | null {depth} : Readable depth .null
  | boolean {depth} (b : Bool) : Readable depth (.boolean b)
  | integer {depth} {n : Int} (lower : -0x8000000000000000 ≤ n) (upper : n < 0x10000000000000000) :
      Readable depth (.integer n)
  | real {depth} {x : Float} (rereads : Rereads x) : Readable depth (.real x)
  | string {depth} (s : String) : Readable depth (.string s)
  | array {depth} {items : List Json} (all : ∀ item ∈ items, Readable depth item) :
      Readable (depth + 1) (.array items)
  | object {depth} {members : List (String × Json)}
      (all : ∀ member ∈ members, Readable depth member.2) : Readable (depth + 1) (.object members)

theorem soundItems_of_forall {depth : Nat} {items : List Json}
    (all : ∀ item ∈ items, sound depth item) : soundItems depth items := by
  induction items with
  | nil => rfl
  | cons item rest ih =>
    obtain ⟨first, others⟩ := List.forall_mem_cons.mp all
    simp [soundItems, first, ih others]

theorem soundMembers_of_forall {depth : Nat} {members : List (String × Json)}
    (all : ∀ member ∈ members, sound depth member.2) : soundMembers depth members := by
  induction members with
  | nil => rfl
  | cons member rest ih =>
    obtain ⟨first, others⟩ := List.forall_mem_cons.mp all
    simp [soundMembers, first, ih others]

theorem sound_of_readable {depth : Nat} {j : Json} (readable : Readable depth j) :
    j.sound depth := by
  induction readable with
  | array _ ih => exact soundItems_of_forall ih
  | object _ ih => exact soundMembers_of_forall ih
  | _ => rfl

namespace Reader

/-! ### Words -/

theorem word?_of_number? {bytes : List UInt8} {cs : List Char} {j : Json}
    (same : bytes.reverse.map asChar = cs) (isNumber : number? cs = some j) :
    word? bytes = some j := by
  have noLiteral : number? ['t', 'r', 'u', 'e'] = none ∧
      number? ['f', 'a', 'l', 's', 'e'] = none ∧ number? ['n', 'u', 'l', 'l'] = none :=
    ⟨rfl, rfl, rfl⟩
  simp only [word?, same]
  -- The three words that stand for a value of their own are no numbers.
  split
  · rw [noLiteral.1] at isNumber
    cases isNumber
  · rw [noLiteral.2.1] at isNumber
    cases isNumber
  · rw [noLiteral.2.2] at isNumber
    cases isNumber
  · exact isNumber

theorem ascii_of_isWordChar {c : Char} (isWord : isWordChar c) : c.toNat < 128 := by
  simp only [isWordChar, Char.isAlphanum, Char.isAlpha, Char.isUpper, Char.isLower, Char.isDigit,
    Bool.or_eq_true, Bool.and_eq_true, decide_eq_true_eq] at isWord
  rcases isWord with ((((⟨-, upper⟩ | ⟨-, lower⟩) | ⟨-, digit⟩) | rfl) | rfl) | rfl
  · exact Nat.lt_of_le_of_lt (UInt32.le_iff_toNat_le.mp upper) (by decide)
  · exact Nat.lt_of_le_of_lt (UInt32.le_iff_toNat_le.mp lower) (by decide)
  · exact Nat.lt_of_le_of_lt (UInt32.le_iff_toNat_le.mp digit) (by decide)
  all_goals decide

/-- The bytes of a word, latest first. -/
def wordBytes (cs : List Char) : List UInt8 := (cs.map fun c => UInt8.ofNat c.toNat).reverse

theorem asChar_wordBytes {cs : List Char} (isWord : ∀ c ∈ cs, isWordChar c) :
    (wordBytes cs).reverse.map asChar = cs := by
  have same : ∀ c ∈ cs, (asChar ∘ fun c => UInt8.ofNat c.toNat) c = id c :=
    fun c member => asChar_of_ascii (ascii_of_isWordChar (isWord c member))
  rw [wordBytes, List.reverse_reverse, List.map_map, List.map_congr_left same, List.map_id]

variable {containers : List Container}

theorem feed_wordTail (before : List UInt8) {cs : List Char} (isWord : ∀ c ∈ cs, isWordChar c) :
    feed ⟨containers, .word before⟩ cs = some ⟨containers, .word (wordBytes cs ++ before)⟩ := by
  induction cs generalizing before with
  | nil => rfl
  | cons c rest ih =>
    obtain ⟨first, others⟩ := List.forall_mem_cons.mp isWord
    have ascii := ascii_of_isWordChar first
    have turn : step ⟨containers, .word before⟩ (UInt8.ofNat c.toNat) =
        some ⟨containers, .word (UInt8.ofNat c.toNat :: before)⟩ := by
      simp only [step, asChar_of_ascii ascii, first, if_true]
    rw [feed_cons _ ascii, turn, Option.bind_some, ih _ others]
    simp [wordBytes]

theorem step_wordStart {c : Char} (isWord : isWordChar c) (opening : Bool) :
    step ⟨containers, .value opening⟩ (UInt8.ofNat c.toNat) =
      some ⟨containers, .word [UInt8.ofNat c.toNat]⟩ := by
  have ascii := ascii_of_isWordChar isWord
  have noBlank : isBlank c = false := by
    simp only [isBlank, Bool.or_eq_false_iff, decide_eq_false_iff_not]
    refine ⟨⟨⟨?_, ?_⟩, ?_⟩, ?_⟩ <;> rintro rfl <;> exact absurd isWord (by decide)
  have noEnd : c ≠ ']' := by
    rintro rfl
    exact absurd isWord (by decide)
  simp only [step, asChar_of_ascii ascii, noBlank, noEnd, decide_false, Bool.and_false,
    Bool.false_eq_true, if_false, open?]
  split
  · exact absurd isWord (by decide)
  · exact absurd isWord (by decide)
  · exact absurd isWord (by decide)
  · rw [if_pos isWord]

/-- A word that begins where a value may stand. -/
theorem feed_word {cs : List Char} (nonempty : cs ≠ []) (isWord : ∀ c ∈ cs, isWordChar c)
    (opening : Bool) :
    feed ⟨containers, .value opening⟩ cs = some ⟨containers, .word (wordBytes cs)⟩ := by
  match cs with
  | [] => exact absurd rfl nonempty
  | c :: rest =>
    obtain ⟨first, others⟩ := List.forall_mem_cons.mp isWord
    rw [feed_cons _ (ascii_of_isWordChar first), step_wordStart first, Option.bind_some,
      feed_wordTail _ others]
    simp [wordBytes]

/-! ### Values -/

/-- The reader has taken a value in, although of a word it has yet to see the end. -/
inductive Taken (containers : List Container) (j : Json) : Reader → Prop where
  | placed : Taken containers j (place containers j)
  | pending {bytes : List UInt8} (value : word? bytes = some j) :
      Taken containers j ⟨containers, .word bytes⟩

theorem step_place (containers : List Container) (j : Json) (b : UInt8) :
    (place containers j).step b = (place containers j).after (asChar b) := by
  match containers with
  | [] => rfl
  | .array _ :: _ => rfl
  | .object _ _ _ :: _ => rfl

/-- What ends a word leaves the value in its place. -/
theorem feed_of_taken {j : Json} {r : Reader} (taken : Taken containers j r) {c : Char}
    (ascii : c.toNat < 128) (noWord : isWordChar c = false) (cs : List Char) :
    r.feed (c :: cs) = ((place containers j).after c).bind fun r => r.feed cs := by
  rw [feed_cons _ ascii]
  cases taken with
  | placed => rw [step_place, asChar_of_ascii ascii]
  | pending value => simp [step, asChar_of_ascii ascii, noWord, value]

theorem result?_of_taken {j : Json} {r : Reader} (taken : Taken [] j r) : r.result? = some j := by
  cases taken with
  | placed => rfl
  | pending value => exact value

/-- Wherever a value may stand, the text of this one is taken for it. -/
def Feeds (j : Json) : Prop :=
  ∀ containers opening, ∃ r, feed ⟨containers, .value opening⟩ j.render = some r ∧
    Taken containers j r

theorem feeds_of_number? {j : Json} (isNumber : number? j.render = some j) : Feeds j := by
  intro containers opening
  have isWord := isWordChar_of_number? isNumber
  have nonempty : j.render ≠ [] := by
    intro empty
    rw [empty] at isNumber
    cases isNumber
  exact ⟨_, feed_word nonempty isWord opening,
    .pending (word?_of_number? (asChar_wordBytes isWord) isNumber)⟩

/-- What follows on `[` or on a comma in an array. -/
theorem feed_renderItems {items : List Json} (feeds : ∀ item ∈ items, Feeds item)
    (before : List Json) (opening : Bool) (mayEnd : items = [] → opening = true) :
    feed ⟨.array before :: containers, .value opening⟩ (renderItems items) =
      some (place containers (.array (before.reverse ++ items))) := by
  -- The induction is on what is to come; what came before stands in the open array.
  induction items generalizing before opening with
  | nil =>
    obtain rfl := mayEnd rfl
    rw [List.append_nil, renderItems, feed_singleton _ (by decide)]
    rfl
  | cons item rest ih =>
    obtain ⟨first, others⟩ := List.forall_mem_cons.mp feeds
    obtain ⟨r, reads, taken⟩ := first (.array before :: containers) opening
    cases rest with
    -- A bracket ends the last item,
    | nil =>
      rw [renderItems, feed_append, reads, Option.bind_some, feed_of_taken taken (by decide) rfl]
      simp [place, after, isBlank, closeArray?]
    -- and a comma any other.
    | cons next more =>
      have goesOn := ih others (item :: before) false nofun
      rw [renderItems, feed_append, reads, Option.bind_some, feed_of_taken taken (by decide) rfl]
      · simpa [place, after, isBlank] using goesOn
      · simp

/-- What follows on `{` or on a comma in an object. -/
theorem feed_renderMembers {members : List (String × Json)}
    (feeds : ∀ member ∈ members, Feeds member.2) (before : List (String × Json)) (key : String)
    (opening : Bool) (mayEnd : members = [] → opening = true) :
    feed ⟨.object before key true :: containers, .key opening⟩ (renderMembers members) =
      some (place containers (.object (before.reverse ++ members))) := by
  induction members generalizing before key opening with
  | nil =>
    obtain rfl := mayEnd rfl
    rw [List.append_nil, renderMembers, feed_singleton _ (by decide)]
    rfl
  | cons member rest ih =>
    obtain ⟨name, value⟩ := member
    obtain ⟨first, others⟩ := List.forall_mem_cons.mp feeds
    obtain ⟨r, reads, taken⟩ := first (.object before name true :: containers) false
    have colon : ∀ cs, feed ⟨.object before name true :: containers, .colon⟩ (':' :: cs) =
        feed ⟨.object before name true :: containers, .value false⟩ cs := fun cs => rfl
    cases rest with
    | nil =>
      rw [renderMembers, List.append_assoc, feed_append, feed_key, Option.bind_some,
        List.cons_append, colon, feed_append, reads, Option.bind_some,
        feed_of_taken taken (by decide) rfl]
      simp [place, after, isBlank, closeObject?]
    | cons next more =>
      have goesOn := ih others ((name, value) :: before) name false nofun
      rw [renderMembers, List.append_assoc, feed_append, feed_key, Option.bind_some,
        List.cons_append, colon, feed_append, reads, Option.bind_some,
        feed_of_taken taken (by decide) rfl]
      · simpa [place, after, isBlank] using goesOn
      · simp

theorem feeds_of_readable {depth : Nat} {j : Json} (readable : Readable depth j) : Feeds j := by
  induction readable with
  | null => exact fun containers opening =>
      ⟨_, feed_word (by simp [render]) (List.all_eq_true.mp rfl) opening, .pending rfl⟩
  | boolean b =>
    intro containers opening
    cases b with
    | true =>
      exact ⟨_, feed_word (by simp [render]) (List.all_eq_true.mp rfl) opening, .pending rfl⟩
    | false =>
      exact ⟨_, feed_word (by simp [render]) (List.all_eq_true.mp rfl) opening, .pending rfl⟩
  | integer lower upper => exact feeds_of_number? (number?_renderInteger lower upper)
  | real rereads =>
    obtain ⟨cs, text, isNumber⟩ := rereads
    exact feeds_of_number? (by rwa [render, text])
  | string s => exact fun containers opening => ⟨_, feed_quote containers opening s, .placed⟩
  | @array _ items _ ih =>
    intro containers opening
    have first : ∀ cs, feed ⟨containers, .value opening⟩ ('[' :: cs) =
        feed ⟨.array [] :: containers, .value true⟩ cs := fun cs => by cases opening <;> rfl
    refine ⟨_, ?_, .placed⟩
    rw [render, first, feed_renderItems ih [] true fun _ => rfl]
    rfl
  | @object _ members _ ih =>
    intro containers opening
    have first : ∀ cs, feed ⟨containers, .value opening⟩ ('{' :: cs) =
        feed ⟨.object [] "" true :: containers, .key true⟩ cs := fun cs => by cases opening <;> rfl
    refine ⟨_, ?_, .placed⟩
    rw [render, first, feed_renderMembers ih [] "" true fun _ => rfl]
    rfl

end Reader

/-- A value is read back from the bytes of its text. -/
theorem read?_text {depth : Nat} {j : Json} (readable : Readable depth j) :
    read? j.text.toUTF8.toList = some j := by
  obtain ⟨r, reads, taken⟩ := Reader.feeds_of_readable readable [] false
  rw [text, toList_toUTF8, read?]
  change (Reader.feed Reader.start j.render).bind Reader.result? = some j
  rw [Reader.start, reads, Option.bind_some, Reader.result?_of_taken taken]

end ExchangeNode.Json
