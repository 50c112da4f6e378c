import ExchangeNode.Text.Blank
import ExchangeNode.Timestamp.Printer
import ExchangeNode.Json.Codec

/-!
# Reading timestamps

A date and a time of day, parted by a `T` or one space, and a zone. Blanks may stand before every
number and every separator, and around the whole. A year has up to four digits, or any number of
them after a sign; the other numbers have one or two. Digits of the fraction beyond the ninth are
dropped. A zone is `Z`, `UTC` in either case, or a sign and hours and minutes of two digits each.
-/

namespace ExchangeNode.Timestamp

open Text (skipBlanks isBlank)

def digitsUpTo (width : Nat) (cs : List Char) : Option (List Char × List Char) :=
  let digits := (cs.take width).takeWhile Char.isDigit
  if digits.isEmpty then none else some (digits, cs.drop digits.length)

def digitsAll (cs : List Char) : Option (List Char × List Char) :=
  let digits := cs.takeWhile Char.isDigit
  if digits.isEmpty then none else some (digits, cs.drop digits.length)

def valueOf (digits : List Char) : Nat := Nat.ofDigitChars 10 digits 0

/-- A number of one or two digits after blanks. -/
def readPair (cs : List Char) : Option (Nat × List Char) :=
  (digitsUpTo 2 (skipBlanks cs)).map fun (digits, rest) => (valueOf digits, rest)

def readYear (cs : List Char) : Option (Int × List Char) :=
  match skipBlanks cs with
  | '-' :: rest => (digitsAll rest).map fun (digits, rest) => (-(valueOf digits : Int), rest)
  | '+' :: rest => (digitsAll rest).map fun (digits, rest) => ((valueOf digits : Int), rest)
  | rest => (digitsUpTo 4 rest).map fun (digits, rest) => ((valueOf digits : Int), rest)

/-- A separator after blanks. -/
def skipMark (mark : Char) (cs : List Char) : Option (List Char) :=
  match skipBlanks cs with
  | c :: rest => if c = mark then some rest else none
  | [] => none

def skipDivide : List Char → Option (List Char)
  | c :: rest => if c = 'T' ∨ c = 't' ∨ c = ' ' then some rest else none
  | [] => none

/-- Nanoseconds; none are meant where no point stands. -/
def readFraction : List Char → Option (Nat × List Char)
  | '.' :: rest =>
    (digitsUpTo 9 rest).map fun (digits, rest) =>
      (valueOf digits * Nat.pow 10 (9 - digits.length), rest.dropWhile Char.isDigit)
  | rest => some (0, rest)

def readTwoDigits : List Char → Option (Nat × List Char)
  | a :: b :: rest => if a.isDigit && b.isDigit then some (valueOf [a, b], rest) else none
  | _ => none

/-- The minutes by which a zone is ahead of UTC. -/
def readOffset (negative : Bool) (cs : List Char) : Option (Int × List Char) := do
  let (hours, rest) ← readTwoDigits cs
  let (minutes, rest) ← readTwoDigits (rest.dropWhile fun c => c = ':' || isBlank c)
  if hours < 24 && minutes < 60 then
    let offset : Int := hours * 60 + minutes
    some (if negative then -offset else offset, rest)
  else none

def readZone (cs : List Char) : Option (Int × List Char) :=
  match skipBlanks cs with
  | 'Z' :: rest => some (0, rest)
  | 'z' :: rest => some (0, rest)
  | '+' :: rest => readOffset false rest
  | '-' :: rest => readOffset true rest
  | '−' :: rest => readOffset true rest
  | u :: t :: c :: rest =>
    if u.toUpper = 'U' && t.toUpper = 'T' && c.toUpper = 'C' then some (0, rest) else none
  | _ => none

def read? (cs : List Char) : Option Timestamp := do
  let (year, cs) ← readYear cs
  let (month, cs) ← readPair (← skipMark '-' cs)
  let (day, cs) ← readPair (← skipMark '-' cs)
  let (hour, cs) ← readPair (← skipDivide cs)
  let (minute, cs) ← readPair (← skipMark ':' cs)
  let (second, cs) ← readPair (← skipMark ':' cs)
  let (nanosecond, cs) ← readFraction cs
  let (offset, cs) ← readZone cs
  if (skipBlanks cs).isEmpty then
    (← of? ⟨year, month, day⟩ hour minute second nanosecond).atOffset? offset
  else none

instance : Codec Timestamp where
  encode t := .string (String.ofList t.render)
  decode?
    | _, .string s => read? s.toList
    | _, _ => none

end ExchangeNode.Timestamp
