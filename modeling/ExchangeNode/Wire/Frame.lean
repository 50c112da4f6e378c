import ExchangeNode.Wire.Message

/-!
# Frames

On a connection each message is preceded by its length, four bytes with the most significant first.
A reader takes the frame it needs and leaves the rest. It refuses a length above its limit at sight.
-/

namespace ExchangeNode.Frame

/-- The longest body a reader accepts. -/
def limit : UInt32 := 16777216

def header (length : UInt32) : List UInt8 :=
  [(length >>> 24).toUInt8, (length >>> 16).toUInt8, (length >>> 8).toUInt8, length.toUInt8]

def headerLength (a b c d : UInt8) : UInt32 :=
  a.toUInt32 <<< 24 ||| b.toUInt32 <<< 16 ||| c.toUInt32 <<< 8 ||| d.toUInt32

def ofBody (body : List UInt8) : List UInt8 := header (UInt32.ofNat body.length) ++ body

/-- The body of the next frame, or what is wrong with it, and the bytes after what was taken. -/
def next (bytes : List UInt8) : Except WireError (List UInt8) × List UInt8 :=
  match bytes with
  | a :: b :: c :: d :: rest =>
    let length := headerLength a b c d
    if limit < length then (.error (.tooLarge length limit), rest)
    else if rest.length < length.toNat then (.error (.io .unexpectedEnd), [])
    else (.ok (rest.take length.toNat), rest.drop length.toNat)
  | _ => (.error .connectionClosed, [])

/-- A frame takes at least its header. -/
theorem length_next_lt {bytes rest : List UInt8} {body : List UInt8}
    (h : next bytes = (.ok body, rest)) : rest.length < bytes.length := by
  unfold next at h
  split at h
  · dsimp only at h
    split at h
    · simp at h
    · split at h
      · simp at h
      · simp only [Prod.mk.injEq, Except.ok.injEq] at h
        obtain ⟨_, rfl⟩ := h
        simp only [List.length_drop, List.length_cons]
        omega
  · simp at h

end ExchangeNode.Frame

namespace ExchangeNode.Message

/-- The bytes put on a connection for a message. -/
def write (m : Message) : List UInt8 := Frame.ofBody m.bytes

/-- The next message on a connection. -/
def read (bytes : List UInt8) : Except WireError Message × List UInt8 :=
  match Frame.next bytes with
  | (.ok body, rest) =>
    match ofBytes? body with
    | some m => (.ok m, rest)
    | none => (.error (.malformed "not a message"), rest)
  | (.error e, rest) => (.error e, rest)

theorem length_read_lt {bytes rest : List UInt8} {m : Message} (h : read bytes = (.ok m, rest)) :
    rest.length < bytes.length := by
  unfold read at h
  split at h
  · next body taken equal =>
    split at h
    · simp only [Prod.mk.injEq] at h
      exact h.2 ▸ Frame.length_next_lt equal
    · simp at h
  · simp at h

end ExchangeNode.Message
