import ExchangeNode.Json.Basic
import ExchangeNode.Decimal.Shortest

/-!
# Compact JSON text

No blanks, members in order. A text escapes the quote, the backslash and the control characters
below U+0020, and nothing else. Numbers that are not finite are written as null.
-/

namespace ExchangeNode.Json

/-- Powers of ten from -5 to 15 are written positionally. -/
def reals : Decimal.Layout := ⟨-5, 15⟩

def hexDigit (n : Nat) : Char := Nat.digitChar (n % 16)

def escape (c : Char) : List Char :=
  if c = '"' then ['\\', '"']
  else if c = '\\' then ['\\', '\\']
  else if 32 ≤ c.toNat then [c]
  else if c = '\n' then ['\\', 'n']
  else if c = '\r' then ['\\', 'r']
  else if c = '\t' then ['\\', 't']
  else if c.toNat = 8 then ['\\', 'b']
  else if c.toNat = 12 then ['\\', 'f']
  else ['\\', 'u', '0', '0', hexDigit (c.toNat / 16), hexDigit c.toNat]

def quote (s : String) : List Char := '"' :: s.toList.flatMap escape ++ ['"']

def renderInteger (n : Int) : List Char :=
  if n < 0 then '-' :: Nat.toDigits 10 n.natAbs else Nat.toDigits 10 n.natAbs

mutual

def render : Json → List Char
  | .null => ['n', 'u', 'l', 'l']
  | .boolean true => ['t', 'r', 'u', 'e']
  | .boolean false => ['f', 'a', 'l', 's', 'e']
  | .integer n => renderInteger n
  | .real x => (Decimal.render reals x).getD ['n', 'u', 'l', 'l']
  | .string s => quote s
  | .array items => '[' :: renderItems items
  | .object members => '{' :: renderMembers members
  | .garbled => ['n', 'u', 'l', 'l']

def renderItems : List Json → List Char
  | [] => [']']
  | [item] => render item ++ [']']
  | item :: rest => render item ++ ',' :: renderItems rest

def renderMembers : List (String × Json) → List Char
  | [] => ['}']
  | [(key, value)] => quote key ++ ':' :: render value ++ ['}']
  | (key, value) :: rest => quote key ++ ':' :: render value ++ ',' :: renderMembers rest

end

def text (j : Json) : String := String.ofList j.render

end ExchangeNode.Json
