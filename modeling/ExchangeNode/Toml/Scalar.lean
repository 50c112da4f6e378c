import ExchangeNode.Json.Basic
import ExchangeNode.Decimal.Scaled
import ExchangeNode.Timestamp.Basic

/-!
# TOML numbers and times

A scalar that begins with a digit or a sign is a time if it can be read as one, else a
floating-point number, else an integer of 64 bits. Underscores may part digits. A number beyond the
largest finite one is refused, beyond the smallest it is minus infinity.
-/

namespace ExchangeNode.Toml

/-- Digits after a first one, with single underscores between them. -/
def moreDigits (isDigit : Char → Bool) : List Char → List Char × List Char
  | '_' :: d :: rest =>
    if isDigit d then
      let (digits, rest) := moreDigits isDigit rest
      (d :: digits, rest)
    else ([], '_' :: d :: rest)
  | d :: rest =>
    if isDigit d then
      let (digits, rest) := moreDigits isDigit rest
      (d :: digits, rest)
    else ([], d :: rest)
  | [] => ([], [])

def digitRun? (isDigit : Char → Bool) : List Char → Option (List Char × List Char)
  | d :: rest =>
    if isDigit d then
      let (digits, rest) := moreDigits isDigit rest
      some (d :: digits, rest)
    else none
  | [] => none

def sign : List Char → Bool × List Char
  | '-' :: rest => (true, rest)
  | '+' :: rest => (false, rest)
  | rest => (false, rest)

/-- Decimal digits of which the first is no zero, unless it is the only one. -/
def wholeDigits? : List Char → Option (List Char × List Char)
  | '0' :: rest => some (['0'], rest)
  | cs => digitRun? Char.isDigit cs

def fractionDigits? : List Char → Option (List Char × List Char)
  | '.' :: rest => digitRun? Char.isDigit rest
  | _ => none

def powerDigits? : List Char → Option (Bool × List Char × List Char)
  | e :: rest =>
    if e = 'e' ∨ e = 'E' then
      let (negative, rest) := sign rest
      (digitRun? Char.isDigit rest).map fun (digits, rest) => (negative, digits, rest)
    else none
  | [] => none

def ofNumeral? (negative : Bool) (n : Decimal.Numeral) : Option Json :=
  let x := n.nearest
  if negative then some (.real (-x)) else if x.isInf then none else some (.real x)

def special? (cs : List Char) : Option (Json × List Char) :=
  let (negative, rest) := sign cs
  let signed (x : Float) : Json := .real (if negative then -x else x)
  match rest with
  | 'i' :: 'n' :: 'f' :: rest => some (signed (1.0 / 0.0), rest)
  | 'n' :: 'a' :: 'n' :: rest => some (signed (0.0 / 0.0), rest)
  | _ => none

def float? (cs : List Char) : Option (Json × List Char) :=
  let (negative, unsigned) := sign cs
  match wholeDigits? unsigned with
  | none => special? cs
  | some (whole, rest) =>
    match fractionDigits? rest with
    | some (fraction, rest) =>
      match powerDigits? rest with
      | some (powerNegative, power, rest) =>
        (ofNumeral? negative ⟨whole, fraction, powerNegative, power⟩).map (·, rest)
      | none => (ofNumeral? negative ⟨whole, fraction, false, []⟩).map (·, rest)
    | none => do
      let (powerNegative, power, rest) ← powerDigits? rest
      (ofNumeral? negative ⟨whole, [], powerNegative, power⟩).map (·, rest)

def digitIn (base : Nat) (c : Char) : Bool :=
  (List.range base).any fun n => Nat.digitChar n == c.toLower

def integerOf? (negative : Bool) (base : Nat) (digits : List Char) : Option Json :=
  let size := digits.foldl (fun sum c =>
    sum * base + if c.isDigit then c.toNat - '0'.toNat else c.toLower.toNat - 'a'.toNat + 10) 0
  if negative then if size ≤ 0x8000000000000000 then some (.integer (-size)) else none
  else if size < 0x8000000000000000 then some (.integer size) else none

def integer? (cs : List Char) : Option (Json × List Char) :=
  let inBase (base : Nat) (cs : List Char) := do
    let (digits, rest) ← digitRun? (digitIn base) cs
    (integerOf? false base digits).map (·, rest)
  match cs with
  | '0' :: 'x' :: rest => inBase 16 rest
  | '0' :: 'o' :: rest => inBase 8 rest
  | '0' :: 'b' :: rest => inBase 2 rest
  | cs => do
    let (negative, rest) := sign cs
    let (digits, rest) ← wholeDigits? rest
    (integerOf? negative 10 digits).map (·, rest)

/-- A number of two digits between two bounds. -/
def twoDigits? (least most : Nat) : List Char → Option (Nat × List Char)
  | a :: b :: rest =>
    let n := (a.toNat - '0'.toNat) * 10 + (b.toNat - '0'.toNat)
    if a.isDigit && b.isDigit && least ≤ n && n ≤ most then some (n, rest) else none
  | _ => none

def skip? (mark : Char) : List Char → Option (List Char)
  | c :: rest => if c = mark then some rest else none
  | [] => none

/-- What follows a date. -/
def afterDate? (cs : List Char) : Option (List Char) :=
  let digits := cs.take 4
  if digits.length = 4 && digits.all Char.isDigit then do
    let year := Nat.ofDigitChars 10 digits 0
    let (month, rest) ← twoDigits? 1 12 (← skip? '-' (cs.drop 4))
    let (_, rest) ← twoDigits? 1 (Calendar.daysInMonth year month) (← skip? '-' rest)
    some rest
  else none

/-- What follows a time of day. -/
def afterTime? (cs : List Char) : Option (List Char) := do
  let (_, rest) ← twoDigits? 0 23 cs
  let (_, rest) ← twoDigits? 0 59 (← skip? ':' rest)
  let (_, rest) ← twoDigits? 0 60 (← skip? ':' rest)
  match rest with
  | '.' :: d :: more => some (if d.isDigit then more.dropWhile Char.isDigit else rest)
  | _ => some rest

/-- What follows a zone, if one stands here. -/
def afterZone? : List Char → Option (List Char)
  | 'Z' :: rest => some rest
  | 'z' :: rest => some rest
  | c :: rest =>
    if c = '+' ∨ c = '-' then do
      let (_, rest) ← twoDigits? 0 23 rest
      let (_, rest) ← twoDigits? 0 59 (← skip? ':' rest)
      some rest
    else some (c :: rest)
  | [] => some []

def afterDivide? : List Char → Option (List Char)
  | c :: rest => if c = 'T' ∨ c = 't' ∨ c = ' ' then some rest else none
  | [] => none

/-- What follows a date, a time of day, or both with or without a zone. -/
def afterMoment? (cs : List Char) : Option (List Char) :=
  match afterDate? cs with
  | some rest =>
    match (afterDivide? rest).bind afterTime? with
    | some timed => afterZone? timed
    | none => some rest
  | none => afterTime? cs

/-- The name of the only member of a time. No record of a configuration has a field of this name. -/
def momentKey : String := "date-time"

def moment? (cs : List Char) : Option (Json × List Char) :=
  (afterMoment? cs).map fun rest =>
    (.object [(momentKey, .string (String.ofList (cs.take (cs.length - rest.length))))], rest)

def scalar? (cs : List Char) : Option (Json × List Char) :=
  (moment? cs).or ((float? cs).or (integer? cs))

end ExchangeNode.Toml
