import ExchangeNode.Proofs.Wire.Framing

/-!
# Frames in sequence

A reader that goes on reading stays in step with the frames on a connection, whatever their bodies
hold: a body that is no message costs its own reading and no other. What is expected of it is said
without the writer: a frame is the length of its body, the most significant byte first, and then the
body.
-/

namespace ExchangeNode

namespace Frame

/-- The four bytes of a number, the most significant first. -/
def bigEndian (n : Nat) : List UInt8 := [n / 2 ^ 24, n / 2 ^ 16, n / 2 ^ 8, n].map UInt8.ofNat

def around (body : List UInt8) : List UInt8 := bigEndian body.length ++ body

theorem toUInt8_shiftRight {n : Nat} (small : n < 2 ^ 32) {bits : UInt32} (within : bits < 32) :
    (UInt32.ofNat n >>> bits).toUInt8 = UInt8.ofNat (n / 2 ^ bits.toNat) := by
  have modulus : bits.toNat % 32 = bits.toNat :=
    Nat.mod_eq_of_lt (UInt32.lt_iff_toNat_lt.mp within)
  apply UInt8.toNat_inj.mp
  simp only [UInt32.toNat_toUInt8, UInt32.toNat_shiftRight, UInt8.toNat_ofNat',
    UInt32.toNat_ofNat_of_lt' small, modulus, Nat.shiftRight_eq_div_pow]

theorem header_eq {n : Nat} (small : n < 2 ^ 32) : header (UInt32.ofNat n) = bigEndian n := by
  have shifted {bits : UInt32} (within : bits < 32) := toUInt8_shiftRight small within
  have last : (UInt32.ofNat n).toUInt8 = UInt8.ofNat n := by
    apply UInt8.toNat_inj.mp
    simp
  rw [header, shifted (by decide), shifted (by decide), shifted (by decide), last]
  rfl

/-- The longest body that is accepted. -/
example : header limit = [1, 0, 0, 0] := rfl

theorem ofBody_eq {body : List UInt8} (fits : body.length ≤ limit.toNat) :
    ofBody body = around body := by
  rw [ofBody, around, header_eq (Nat.lt_of_le_of_lt fits (by decide))]

end Frame

namespace Message

/-- What a body is read as. -/
def readAs (body : List UInt8) : Except WireError Message :=
  match ofBytes? body with
  | some m => .ok m
  | none => .error (.malformed "not a message")

/-- So many readings, one after the other: the result of each, and the bytes after what it took. -/
def readings : Nat → List UInt8 → List (Except WireError Message × List UInt8)
  | 0, _ => []
  | count + 1, bytes => read bytes :: readings count (read bytes).2

/-- One result for each body, and after it the frames of the later bodies. -/
def inStep : List (List UInt8) → List (Except WireError Message × List UInt8)
  | [] => []
  | body :: later => (readAs body, later.flatMap Frame.around) :: inStep later

theorem read_around {body : List UInt8} (fits : body.length ≤ Frame.limit.toNat)
    (rest : List UInt8) : read (Frame.around body ++ rest) = (readAs body, rest) := by
  simp only [read, readAs, ← Frame.ofBody_eq fits, Frame.next_ofBody fits]
  cases ofBytes? body <;> rfl

theorem readings_nil (count : Nat) :
    readings count [] = List.replicate count (.error .connectionClosed, []) := by
  induction count with
  | zero => rfl
  | succ count ih => rw [readings, read_nil, ih, List.replicate_succ]

/-- Of any frames within the limit a reader takes one at a time, wholly, and reports each body as
what it is. After the last it finds the connection closed. A message within the limit is written as
such a frame. -/
theorem readings_in_step (bodies : List (List UInt8))
    (fits : ∀ body ∈ bodies, body.length ≤ Frame.limit.toNat) (more : Nat) :
    readings (bodies.length + more) (bodies.flatMap Frame.around) =
      inStep bodies ++ List.replicate more (.error .connectionClosed, []) ∧
    ∀ m : Message, m.Fits → m.write = Frame.around m.bytes := by
  refine ⟨?_, fun m => Frame.ofBody_eq⟩
  induction bodies with
  | nil => simpa [inStep] using readings_nil more
  | cons body later ih =>
    obtain ⟨first, others⟩ := List.forall_mem_cons.mp fits
    -- The first reading leaves the later frames as they are, whatever it makes of its own.
    rw [List.length_cons, Nat.add_right_comm, readings, List.flatMap_cons, read_around first,
      ih others, inStep, List.cons_append]

/-- A message, a body that is none, and the end. -/
theorem readings_in_step_of_query :
    let query : Message := ⟨11, .request (.queryNode 3)⟩
    let bodies := [query.bytes, []]
    (∀ body ∈ bodies, body.length ≤ Frame.limit.toNat) ∧
      readings 3 (query.write ++ [0, 0, 0, 0]) =
        [(.ok query, [0, 0, 0, 0]), (.error (.malformed "not a message"), []),
          (.error .connectionClosed, [])] := by
  intro query bodies
  have short : query.Fits := by decide +kernel
  have fits : ∀ body ∈ bodies, body.length ≤ Frame.limit.toNat := by
    simpa [bodies, Fits] using short
  obtain ⟨inTurn, framed⟩ := readings_in_step bodies fits 1
  have valid : readAs query.bytes = .ok query := by
    rw [readAs, ofBytes?_bytes (by decide)]
  have invalid : readAs [] = .error (.malformed "not a message") := by decide +kernel
  refine ⟨fits, ?_⟩
  rw [framed query short]
  simpa [bodies, inStep, valid, invalid, Frame.around, Frame.bigEndian] using inTurn

end Message

end ExchangeNode
