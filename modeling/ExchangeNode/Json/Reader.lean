import ExchangeNode.Json.Numeral

/-!
# Reading JSON

The reader takes one byte at a time. Between bytes it knows the arrays and objects still open and
what may come next, so reading is a fold over the text and nesting costs no recursion. A text must
be UTF-8 without control characters; an escape outside the eight short ones names a UTF-16 unit.
A text that is no Unicode text is read to its end and becomes a garbled value.
-/

namespace ExchangeNode.Json

/-- An array or object still open; what it holds so far stands latest first. An object also has the
key of the member being read, and knows whether all its keys were Unicode texts. -/
inductive Container where
  | array (before : List Json)
  | object (before : List (String × Json)) (key : String) (legible : Bool)

/-- A text being read: its UTF-8 bytes, latest first, and the first half of a surrogate pair that
waits for the second. -/
structure OpenText where
  bytes : List UInt8
  high : Option Nat
  legible : Bool

inductive Expect where
  /-- A value; right after `[` the array may end instead. -/
  | value (opening : Bool)
  /-- A key; right after `{` the object may end instead. -/
  | key (opening : Bool)
  | colon
  /-- A comma or the end of the innermost container. -/
  | separator
  | text (isKey : Bool) (draft : OpenText)
  | escape (isKey : Bool) (draft : OpenText)
  /-- The digits left of a UTF-16 unit, and the sum of those read. -/
  | unit (isKey : Bool) (draft : OpenText) (left : Nat) (sum : Nat)
  /-- A number or one of the three literals, latest byte first. -/
  | word (bytes : List UInt8)
  /-- Only blanks may follow. -/
  | finished (value : Json)

structure Reader where
  containers : List Container
  expect : Expect

namespace OpenText

def empty : OpenText := ⟨[], none, true⟩

/-- A first half that stays alone spoils the text. -/
def settled (d : OpenText) : OpenText := ⟨d.bytes, none, d.legible && d.high.isNone⟩

def byte (d : OpenText) (b : UInt8) : OpenText := { d.settled with bytes := b :: d.bytes }

def char (d : OpenText) (c : Char) : OpenText :=
  { d.settled with bytes := (String.utf8EncodeChar c).reverse ++ d.bytes }

def isHigh (unit : Nat) : Bool := 0xD800 ≤ unit && unit < 0xDC00

def isLow (unit : Nat) : Bool := 0xDC00 ≤ unit && unit < 0xE000

def utf16Unit (d : OpenText) (unit : Nat) : OpenText :=
  match d.high, isLow unit with
  | some high, true =>
    ({ d with high := none } : OpenText).char
      (Char.ofNat (0x10000 + (high - 0xD800) * 0x400 + (unit - 0xDC00)))
  | _, true => { d.settled with legible := false }
  | _, false =>
    if isHigh unit then { d.settled with high := some unit }
    else d.char (Char.ofNat unit)

def finish? (d : OpenText) : Option String :=
  if d.settled.legible then String.fromUTF8? d.bytes.reverse.toByteArray else none

end OpenText

def asChar (b : UInt8) : Char := Char.ofNat b.toNat

def isBlank (c : Char) : Bool := c = ' ' || c = '\n' || c = '\t' || c = '\r'

def isWordChar (c : Char) : Bool := c.isAlphanum || c = '-' || c = '+' || c = '.'

/-- The value of a word. -/
def word? (bytes : List UInt8) : Option Json :=
  match bytes.reverse.map asChar with
  | ['t', 'r', 'u', 'e'] => some (.boolean true)
  | ['f', 'a', 'l', 's', 'e'] => some (.boolean false)
  | ['n', 'u', 'l', 'l'] => some .null
  | cs => number? cs

def shortEscape? (c : Char) : Option Char :=
  match c with
  | '"' => some '"'
  | '\\' => some '\\'
  | '/' => some '/'
  | 'b' => some (Char.ofNat 8)
  | 'f' => some (Char.ofNat 12)
  | 'n' => some '\n'
  | 'r' => some '\r'
  | 't' => some '\t'
  | _ => none

def hexValue? (c : Char) : Option Nat :=
  if c.isDigit then some (c.toNat - '0'.toNat)
  else if 'a' ≤ c && c ≤ 'f' then some (c.toNat - 'a'.toNat + 10)
  else if 'A' ≤ c && c ≤ 'F' then some (c.toNat - 'A'.toNat + 10)
  else none

namespace Reader

def start : Reader := ⟨[], .value false⟩

/-- Put a finished value into the innermost container. -/
def place (containers : List Container) (value : Json) : Reader :=
  match containers with
  | [] => ⟨[], .finished value⟩
  | .array before :: outer => ⟨.array (value :: before) :: outer, .separator⟩
  | .object before key legible :: outer =>
    ⟨.object ((key, value) :: before) key legible :: outer, .separator⟩

def closeArray? (containers : List Container) : Option Reader :=
  match containers with
  | .array before :: outer => some (place outer (.array before.reverse))
  | _ => none

def closeObject? (containers : List Container) : Option Reader :=
  match containers with
  | .object before _ legible :: outer =>
    some (place outer (if legible then .object before.reverse else .garbled))
  | _ => none

/-- One byte after a value. -/
def after (r : Reader) (c : Char) : Option Reader :=
  if isBlank c then some r
  else match r.containers, c with
    | .array _ :: _, ',' => some ⟨r.containers, .value false⟩
    | .object .. :: _, ',' => some ⟨r.containers, .key false⟩
    | containers, ']' => closeArray? containers
    | containers, '}' => closeObject? containers
    | _, _ => none

/-- The end of a text. -/
def closeText (containers : List Container) (isKey : Bool) (draft : OpenText) : Option Reader :=
  match isKey, containers with
  | true, .object before _ legible :: outer =>
    match draft.finish? with
    | some key => some ⟨.object before key legible :: outer, .colon⟩
    | none => some ⟨.object before "" false :: outer, .colon⟩
  | true, _ => none
  | false, containers =>
    some (place containers (match draft.finish? with | some s => .string s | none => .garbled))

/-- The first byte of a value. -/
def open? (containers : List Container) (b : UInt8) : Option Reader :=
  match asChar b with
  | '"' => some ⟨containers, .text false .empty⟩
  | '[' => some ⟨.array [] :: containers, .value true⟩
  | '{' => some ⟨.object [] "" true :: containers, .key true⟩
  | c => if isWordChar c then some ⟨containers, .word [b]⟩ else none

def step (r : Reader) (b : UInt8) : Option Reader :=
  let c := asChar b
  match r.expect with
  | .value opening =>
    if isBlank c then some r
    else if opening && c = ']' then closeArray? r.containers
    else open? r.containers b
  | .key opening =>
    if isBlank c then some r
    else if opening && c = '}' then closeObject? r.containers
    else if c = '"' then some ⟨r.containers, .text true .empty⟩
    else none
  | .colon =>
    if isBlank c then some r
    else if c = ':' then some ⟨r.containers, .value false⟩
    else none
  | .separator => r.after c
  | .finished _ => r.after c
  | .text isKey draft =>
    if c = '"' then closeText r.containers isKey draft
    else if c = '\\' then some ⟨r.containers, .escape isKey draft⟩
    else if b < 32 then none
    else some ⟨r.containers, .text isKey (draft.byte b)⟩
  | .escape isKey draft =>
    if c = 'u' then some ⟨r.containers, .unit isKey draft 4 0⟩
    else (shortEscape? c).map fun c => ⟨r.containers, .text isKey (draft.char c)⟩
  | .unit isKey draft left sum =>
    (hexValue? c).map fun digit =>
      let sum := sum * 16 + digit
      if left ≤ 1 then ⟨r.containers, .text isKey (draft.utf16Unit sum)⟩
      else ⟨r.containers, .unit isKey draft (left - 1) sum⟩
  | .word bytes =>
    if isWordChar c then some ⟨r.containers, .word (b :: bytes)⟩
    else (word? bytes).bind fun value => (place r.containers value).after c

def run : Reader → List UInt8 → Option Reader
  | r, [] => some r
  | r, b :: rest => (r.step b).bind fun r => run r rest

/-- The value of the whole text, when it has ended. -/
def result? (r : Reader) : Option Json :=
  match r.containers, r.expect with
  | [], .finished value => some value
  | [], .word bytes => word? bytes
  | _, _ => none

end Reader

/-- The value written in the text, if it is one value between blanks. -/
def read? (bytes : List UInt8) : Option Json :=
  (Reader.start.run bytes).bind Reader.result?

end ExchangeNode.Json
