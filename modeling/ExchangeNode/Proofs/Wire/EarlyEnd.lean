import ExchangeNode.Proofs.Wire.Sequence
import ExchangeNode.Proofs.Wire.Streams

/-!
# Bytes that end too early

A connection may end between two frames or within one. A reader tells this by what it is waiting for:
where a length is due it reports a closed connection, within a body that the bytes have ended. So a
stream that breaks off within a body is seen to fail, but one that breaks off within the length of a
frame passes for a whole one.
-/

namespace ExchangeNode

namespace Frame

variable {bytes : List UInt8}

/-- Bytes that do not reach the end of the frame they begin. -/
def BreaksOff (bytes : List UInt8) : Prop :=
  ∃ body missing : List UInt8,
    body.length ≤ limit.toNat ∧ missing ≠ [] ∧ bytes ++ missing = around body

theorem next_of_breaksOff (broken : BreaksOff bytes) :
    next bytes =
      (.error (if bytes.length < 4 then .connectionClosed else .io .unexpectedEnd), []) := by
  obtain ⟨body, missing, fits, isMissing, whole⟩ := broken
  have taken : bytes = (ofBody body).take bytes.length := by
    rw [ofBody_eq fits, ← whole, List.take_left]
  have incomplete : bytes.length < (ofBody body).length := by
    have := List.length_pos_iff.mpr isMissing
    rw [ofBody_eq fits, ← whole, List.length_append]
    omega
  rw [taken, next_take_eq fits incomplete, ← taken]

theorem length_lt_of_no_header
    (short : ∀ a b c d rest, bytes ≠ a :: b :: c :: d :: rest) : bytes.length < 4 := by
  match bytes, short with
  | [], _ | [_], _ | [_, _], _ | [_, _, _], _ => simp
  | a :: b :: c :: d :: rest, short => exact absurd rfl (short a b c d rest)

theorem next_closed : (next bytes).1 = .error .connectionClosed ↔ bytes.length < 4 := by
  unfold next
  split
  · dsimp only
    split
    · simp
    · split <;> simp
  · next short => simp [length_lt_of_no_header short]

/-- So many bytes more complete a frame of which the length has come. -/
theorem breaksOff_of_short {a b c d : UInt8} {rest : List UInt8}
    (within : ¬ limit < headerLength a b c d) (few : rest.length < (headerLength a b c d).toNat) :
    BreaksOff (a :: b :: c :: d :: rest) := by
  let missing := List.replicate ((headerLength a b c d).toNat - rest.length) (0 : UInt8)
  have filled : (rest ++ missing).length = (headerLength a b c d).toNat := by
    rw [List.length_append, List.length_replicate]
    omega
  refine ⟨rest ++ missing, missing, ?_, ?_, ?_⟩
  · rw [filled]
    exact UInt32.le_iff_toNat_le.mp (UInt32.not_lt.mp within)
  · apply List.ne_nil_of_length_pos
    rw [List.length_replicate]
    omega
  · rw [around, filled, ← header_eq (UInt32.toNat_lt _), UInt32.ofNat_toNat, header_headerLength]
    rfl

theorem next_ended :
    (next bytes).1 = .error (.io .unexpectedEnd) ↔ 4 ≤ bytes.length ∧ BreaksOff bytes := by
  constructor
  · intro ended
    unfold next at ended
    split at ended
    · dsimp only at ended
      split at ended
      · simp at ended
      · next within =>
        split at ended
        · next few => exact ⟨by simp, breaksOff_of_short within few⟩
        · simp at ended
    · simp at ended
  · rintro ⟨enough, broken⟩
    rw [next_of_breaksOff broken, if_neg (by omega)]

end Frame

namespace Message

variable {bytes : List UInt8}

theorem read_error {e : WireError} (shortage : e.isShortage) :
    (read bytes).1 = .error e ↔ (Frame.next bytes).1 = .error e := by
  unfold read
  rcases Frame.next bytes with ⟨_ | body, rest⟩
  · simp only [Except.error.injEq]
  · dsimp only
    cases ofBytes? body with
    | some m => simp
    | none =>
      have other : e ≠ .malformed "not a message" := by
        rintro rfl
        cases shortage
      simpa using other.symm

theorem breaksOff_write {m : Message} (fits : m.Fits) {count : Nat}
    (incomplete : count < m.write.length) : Frame.BreaksOff (m.write.take count) := by
  refine ⟨m.bytes, m.write.drop count, fits, ?_, ?_⟩
  · rwa [ne_eq, List.drop_eq_nil_iff, Nat.not_le]
  · rw [List.take_append_drop, write, Frame.ofBody_eq fits]

theorem read_of_breaksOff (broken : Frame.BreaksOff bytes) :
    read bytes =
      (.error (if bytes.length < 4 then .connectionClosed else .io .unexpectedEnd), []) := by
  rw [read, Frame.next_of_breaksOff broken]

end Message

namespace Subscription

variable {β : Type} {method : Method} {record? : Item → Option β}

theorem records_of_error {bytes rest : List UInt8} {e : WireError}
    (taken : Message.read bytes = (.error e, rest)) :
    records method record? bytes = if e = .connectionClosed then [] else [.error e] := by
  rw [records]
  split
  · next equal =>
    rw [taken] at equal
    cases equal
  · next equal =>
    rw [taken] at equal
    obtain ⟨rfl, -⟩ : e = _ ∧ rest = _ := by simpa using equal
    cases e <;> rfl

/-- The frames of any records, whatever follows them. -/
theorem records_around {bodies : List (List UInt8)} {taken : List β}
    (fits : ∀ body ∈ bodies, body.length ≤ Frame.limit.toNat)
    (areRecords : List.Forall₂ (fun body b => element method record? (Message.readAs body) = .record b)
      bodies taken) (rest : List UInt8) :
    records method record? (bodies.flatMap Frame.around ++ rest) =
      taken.map .ok ++ records method record? rest := by
  induction areRecords with
  | nil => rfl
  | @cons body b later _ isRecord _ ih =>
    obtain ⟨first, others⟩ := List.forall_mem_cons.mp fits
    have read := Message.read_around first (later.flatMap Frame.around ++ rest)
    rw [List.flatMap_cons, List.append_assoc]
    cases readable : Message.readAs body with
    | error e =>
      rw [readable] at isRecord
      cases e <;> cases isRecord
    | ok m =>
      rw [readable] at read isRecord
      rw [records_of_record read isRecord, ih others]
      rfl

/-- What the end of the bytes is taken for. A reader finds the connection closed exactly where fewer
bytes have come than make up a length, and finds that the bytes have ended exactly where they end in
the body of a frame. So a stream that breaks off after some records fails there if it does so
in the body of a frame, and ends there as a whole one does if less than the length of the next frame
has come. -/
theorem early_end (method : Method) (record? : Item → Option β) (bytes : List UInt8) :
    ((Message.read bytes).1 = .error .connectionClosed ↔ bytes.length < 4) ∧
    ((Message.read bytes).1 = .error (.io .unexpectedEnd) ↔
      4 ≤ bytes.length ∧ Frame.BreaksOff bytes) ∧
    ∀ (bodies : List (List UInt8)) (taken : List β), Frame.BreaksOff bytes →
      (∀ body ∈ bodies, body.length ≤ Frame.limit.toNat) →
      List.Forall₂ (fun body b => element method record? (Message.readAs body) = .record b)
        bodies taken →
      records method record? (bodies.flatMap Frame.around ++ bytes) =
        taken.map .ok ++ if bytes.length < 4 then [] else [.error (.io .unexpectedEnd)] := by
  refine ⟨(Message.read_error rfl).trans Frame.next_closed,
    (Message.read_error rfl).trans Frame.next_ended, ?_⟩
  intro bodies taken broken fits areRecords
  rw [records_around fits areRecords, records_of_error (Message.read_of_breaksOff broken)]
  split <;> rfl

section

/-- A message on a bus, as it comes in a stream. -/
def said : Message := ⟨0, .item (.message ⟨1, 2, 3, 50, 0, "text", "\"hello\"", none⟩)⟩

theorem fits_said : said.Fits := by decide +kernel

theorem write_said : said.write = [said.bytes].flatMap Frame.around := by
  simp [Message.write, Frame.ofBody_eq fits_said]

theorem records_said :
    List.Forall₂ (fun body item =>
        element .subscribeBus (Method.item? .subscribeBus) (Message.readAs body) = .record item)
      [said.bytes] [.message ⟨1, 2, 3, 50, 0, "text", "\"hello\"", none⟩] := by
  refine .cons ?_ .nil
  have rereads : said.Rereads := Message.rereads_of_item _ _
  rw [Message.readAs, Message.ofBytes?_bytes rereads]
  rfl

theorem said_incomplete {count : Nat} (few : count ≤ 9) : count < said.write.length := by
  have : 9 < said.write.length := by
    rw [Message.write, Message.bytes_eq]
    decide +kernel
  omega

/-- A record, and the next frame up to some bytes of its body. -/
theorem early_end_in_body :
    let broken := said.write.take 9
    Frame.BreaksOff broken ∧ (∀ body ∈ [said.bytes], body.length ≤ Frame.limit.toNat) ∧
      (Message.read broken).1 = .error (.io .unexpectedEnd) ∧
      records .subscribeBus (Method.item? .subscribeBus) (said.write ++ broken) =
        [.ok (.message ⟨1, 2, 3, 50, 0, "text", "\"hello\"", none⟩),
          .error (.io .unexpectedEnd)] := by
  intro broken
  have breaksOff : Frame.BreaksOff broken :=
    Message.breaksOff_write fits_said (said_incomplete (Nat.le_refl 9))
  have length : broken.length = 9 := by
    rw [List.length_take]
    have := said_incomplete (Nat.le_refl 9)
    omega
  have fits : ∀ body ∈ [said.bytes], body.length ≤ Frame.limit.toNat :=
    List.forall_mem_singleton.mpr fits_said
  obtain ⟨-, ended, stream⟩ :=
    early_end .subscribeBus (Method.item? .subscribeBus) broken
  refine ⟨breaksOff, fits, ended.mpr ⟨by omega, breaksOff⟩, ?_⟩
  rw [write_said, stream _ _ breaksOff fits records_said, if_neg (by omega)]
  rfl

/-- Two bytes of a length are taken for a closed connection, and a stream that breaks off behind
them for a whole one. -/
theorem early_end_in_length :
    let broken := said.write.take 2
    Frame.BreaksOff broken ∧ broken ≠ [] ∧ (Message.read broken).1 = .error .connectionClosed ∧
      records .subscribeBus (Method.item? .subscribeBus) (said.write ++ broken) =
        [.ok (.message ⟨1, 2, 3, 50, 0, "text", "\"hello\"", none⟩)] := by
  intro broken
  have breaksOff : Frame.BreaksOff broken :=
    Message.breaksOff_write fits_said (said_incomplete (by decide))
  have read := Message.read_of_breaksOff breaksOff
  have fits : ∀ body ∈ [said.bytes], body.length ≤ Frame.limit.toNat :=
    List.forall_mem_singleton.mpr fits_said
  refine ⟨breaksOff, nofun, congrArg Prod.fst read, ?_⟩
  rw [write_said, records_around fits records_said, records_of_error read]
  rfl

end

end Subscription

end ExchangeNode
