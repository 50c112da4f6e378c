/-!
# TOML texts and keys

Lines end with a line feed, alone or after a carriage return. No text, comment or key holds a
control character other than the tab. A text over several lines drops a line break right after its
opening quotes, and may hold one or two quotes before its closing ones.
-/

namespace ExchangeNode.Toml

def isSpace (c : Char) : Bool := c = ' ' || c = '\t'

def skipSpaces (cs : List Char) : List Char := cs.dropWhile isSpace

/-- What may stand in a comment or, quotes and backslashes apart, in a text. -/
def isPrintable (c : Char) : Bool := c = '\t' || (32 ≤ c.toNat && c.toNat ≠ 127)

def lineBreak? : List Char → Option (List Char)
  | '\n' :: rest => some rest
  | '\r' :: '\n' :: rest => some rest
  | _ => none

def skipLineBreak (cs : List Char) : List Char := (lineBreak? cs).getD cs

def skipComment : List Char → List Char
  | '#' :: rest => rest.dropWhile isPrintable
  | rest => rest

/-- The line after this one, when only blanks and a comment are left on it. -/
def endLine? (cs : List Char) : Option (List Char) :=
  let rest := skipComment (skipSpaces cs)
  if rest.isEmpty then some [] else lineBreak? rest

/-- Pass over blanks, line breaks and comments; `comment` says whether one has begun. -/
def skipLines (comment : Bool) : List Char → List Char
  | '\n' :: rest => skipLines false rest
  | '\r' :: '\n' :: rest => skipLines false rest
  | c :: rest =>
    if comment then if isPrintable c then skipLines true rest else c :: rest
    else if c = '#' then skipLines true rest
    else if isSpace c then skipLines false rest
    else c :: rest
  | [] => []

/-- Whether only blanks stand before the end of the line. -/
def breaksLine (cs : List Char) : Bool := (lineBreak? (skipSpaces cs)).isSome

def hexDigit? (c : Char) : Option Nat :=
  if c.isDigit then some (c.toNat - '0'.toNat)
  else if 'a' ≤ c && c ≤ 'f' then some (c.toNat - 'a'.toNat + 10)
  else if 'A' ≤ c && c ≤ 'F' then some (c.toNat - 'A'.toNat + 10)
  else none

/-- The character with the code point that the digits give. -/
def codePoint? (digits : List Char) : Option Char := do
  let values ← digits.mapM hexDigit?
  let n := values.foldl (fun sum digit => sum * 16 + digit) 0
  if n.isValidChar then some (Char.ofNat n) else none

def shortEscape? : Char → Option Char
  | 'b' => some (Char.ofNat 8)
  | 't' => some '\t'
  | 'n' => some '\n'
  | 'f' => some (Char.ofNat 12)
  | 'r' => some '\r'
  | '"' => some '"'
  | '\\' => some '\\'
  | _ => none

private def push (c : Char) : Option (List Char × List Char) → Option (List Char × List Char) :=
  Option.map fun (text, rest) => (c :: text, rest)

/-- A text between double quotes on one line, after its opening quote. -/
def basicLine : List Char → Option (List Char × List Char)
  | '"' :: rest => some ([], rest)
  | '\\' :: 'u' :: a :: b :: c :: d :: rest =>
    (codePoint? [a, b, c, d]).bind fun x => push x (basicLine rest)
  | '\\' :: 'U' :: a :: b :: c :: d :: e :: f :: g :: h :: rest =>
    (codePoint? [a, b, c, d, e, f, g, h]).bind fun x => push x (basicLine rest)
  | '\\' :: c :: rest => (shortEscape? c).bind fun x => push x (basicLine rest)
  | c :: rest => if isPrintable c && c ≠ '\\' then push c (basicLine rest) else none
  | [] => none

/-- A text between single quotes on one line, after its opening quote. -/
def literalLine : List Char → Option (List Char × List Char)
  | '\'' :: rest => some ([], rest)
  | c :: rest => if isPrintable c then push c (literalLine rest) else none
  | [] => none

/-- A text between three double quotes. After a backslash at the end of a line everything blank
is passed over. -/
def basicLines (skipping : Bool) : List Char → Option (List Char × List Char)
  | '"' :: '"' :: '"' :: '"' :: '"' :: rest => some (['"', '"'], rest)
  | '"' :: '"' :: '"' :: '"' :: rest => some (['"'], rest)
  | '"' :: '"' :: '"' :: rest => some ([], rest)
  | '\r' :: '\n' :: rest =>
    if skipping then basicLines true rest else push '\n' (basicLines false rest)
  | '\n' :: rest =>
    if skipping then basicLines true rest else push '\n' (basicLines false rest)
  | '\\' :: c :: rest =>
    if breaksLine (c :: rest) then basicLines true rest
    else match c, rest with
      | 'u', a :: b :: c :: d :: rest =>
        (codePoint? [a, b, c, d]).bind fun x => push x (basicLines false rest)
      | 'U', a :: b :: c :: d :: e :: f :: g :: h :: rest =>
        (codePoint? [a, b, c, d, e, f, g, h]).bind fun x => push x (basicLines false rest)
      | c, rest => (shortEscape? c).bind fun x => push x (basicLines false rest)
  | c :: rest =>
    if skipping && isSpace c then basicLines true rest
    else if isPrintable c && c ≠ '\\' then push c (basicLines false rest)
    else none
  | [] => none

/-- A text between three single quotes. -/
def literalLines : List Char → Option (List Char × List Char)
  | '\'' :: '\'' :: '\'' :: '\'' :: '\'' :: rest => some (['\'', '\''], rest)
  | '\'' :: '\'' :: '\'' :: '\'' :: rest => some (['\''], rest)
  | '\'' :: '\'' :: '\'' :: rest => some ([], rest)
  | '\r' :: '\n' :: rest => push '\n' (literalLines rest)
  | '\n' :: rest => push '\n' (literalLines rest)
  | c :: rest => if isPrintable c then push c (literalLines rest) else none
  | [] => none

/-- A text with its quotes. -/
def text? : List Char → Option (List Char × List Char)
  | '"' :: '"' :: '"' :: rest => basicLines false (skipLineBreak rest)
  | '"' :: rest => basicLine rest
  | '\'' :: '\'' :: '\'' :: rest => literalLines (skipLineBreak rest)
  | '\'' :: rest => literalLine rest
  | _ => none

def isBare (c : Char) : Bool := c.isAlphanum || c = '-' || c = '_'

/-- One part of a key. -/
def simpleKey? : List Char → Option (List Char × List Char)
  | '"' :: rest => basicLine rest
  | '\'' :: rest => literalLine rest
  | cs =>
    let key := cs.takeWhile isBare
    if key.isEmpty then none else some (key, cs.drop key.length)

/-- A key of at most `parts` parts, and what follows it and the blanks after it. -/
def key? (parts : Nat) (cs : List Char) : Option (List String × List Char) :=
  match parts with
  | 0 => none
  | parts + 1 => do
    let (part, rest) ← simpleKey? (skipSpaces cs)
    match skipSpaces rest with
    | '.' :: rest => (key? parts rest).map fun (path, rest) => (String.ofList part :: path, rest)
    | rest => some ([String.ofList part], rest)

end ExchangeNode.Toml
