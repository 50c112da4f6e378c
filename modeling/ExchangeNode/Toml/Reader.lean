import ExchangeNode.Toml.Text
import ExchangeNode.Toml.Scalar
import ExchangeNode.Toml.Table

/-!
# Reading TOML

A document is read line by line into its tables. Arrays and inline tables nest less than eighty
deep and a key has less than eighty parts. An inline table stands on one line and ends without a
comma.
-/

namespace ExchangeNode.Toml

def nesting : Nat := 79

mutual

/-- A value, and what follows it. Every step into a part uses up one unit of fuel, and every array
or inline table one of depth. -/
def value? (fuel depth : Nat) (cs : List Char) : Option (Json × List Char) :=
  match fuel with
  | 0 => none
  | fuel + 1 =>
    match cs with
    | '"' :: _ => (text? cs).map fun (text, rest) => (.string (String.ofList text), rest)
    | '\'' :: _ => (text? cs).map fun (text, rest) => (.string (String.ofList text), rest)
    | '[' :: rest =>
      match depth with
      | 0 => none
      | depth + 1 => (items? fuel depth rest).map fun (items, rest) => (.array items, rest)
    | '{' :: rest =>
      match depth with
      | 0 => none
      | depth + 1 => do
        let (entries, rest) ← match skipSpaces rest with
          | '}' :: rest => some ([], rest)
          | rest => pairs? fuel depth [] rest
        some (.object (entriesToJson entries), rest)
    | 't' :: 'r' :: 'u' :: 'e' :: rest => some (.boolean true, rest)
    | 'f' :: 'a' :: 'l' :: 's' :: 'e' :: rest => some (.boolean false, rest)
    | cs => scalar? cs

/-- The items of an array up to its end. -/
def items? (fuel depth : Nat) (cs : List Char) : Option (List Json × List Char) :=
  match fuel with
  | 0 => none
  | fuel + 1 =>
    match skipLines false cs with
    | ']' :: rest => some ([], rest)
    | cs => do
      let (item, rest) ← value? fuel depth cs
      match skipLines false rest with
      | ',' :: rest => (items? fuel depth rest).map fun (items, rest) => (item :: items, rest)
      | ']' :: rest => some ([item], rest)
      | _ => none

/-- The pairs of an inline table up to its end, added to the entries before them. -/
def pairs? (fuel depth : Nat) (entries : Entries) (cs : List Char) :
    Option (Entries × List Char) :=
  match fuel with
  | 0 => none
  | fuel + 1 => do
    let (path, rest) ← key? nesting cs
    let (value, rest) ← value? fuel depth (skipSpaces (← skip? '=' rest))
    let entries ← entries.enter path value
    match skipSpaces rest with
    | ',' :: rest => pairs? fuel depth entries rest
    | '}' :: rest => some (entries, rest)
    | _ => none

end

/-- One line that is neither blank nor a comment, and the lines after it. -/
def line? (d : Document) (cs : List Char) : Option (Document × List Char) :=
  match cs with
  | '[' :: '[' :: rest => do
    let (path, rest) ← key? nesting rest
    let rest ← endLine? (← skip? ']' (← skip? ']' rest))
    (d.beginElement path).map (·, rest)
  | '[' :: rest => do
    let (path, rest) ← key? nesting rest
    let rest ← endLine? (← skip? ']' rest)
    (d.beginTable path).map (·, rest)
  | cs => do
    let (path, rest) ← key? nesting cs
    let rest := skipSpaces (← skip? '=' rest)
    let (value, rest) ← value? (2 * rest.length + 2) nesting rest
    let rest ← endLine? rest
    (d.enter path value).map (·, rest)

/-- All lines; each uses up one unit of fuel. -/
def lines? (fuel : Nat) (d : Document) (cs : List Char) : Option Document :=
  match fuel with
  | 0 => none
  | fuel + 1 =>
    match skipSpaces cs with
    | [] => some d
    | cs =>
      match cs with
      | '#' :: _ => (endLine? cs).bind (lines? fuel d)
      | '\n' :: _ => (lineBreak? cs).bind (lines? fuel d)
      | '\r' :: _ => (lineBreak? cs).bind (lines? fuel d)
      | cs => (line? d cs).bind fun (d, rest) => lines? fuel d rest

def skipMark : List Char → List Char
  | '\uFEFF' :: rest => rest
  | cs => cs

/-- The table a document describes, if it is one. A byte order mark before it is passed over. -/
def read? (cs : List Char) : Option Json := do
  let d ← lines? (cs.length + 1) .empty (skipMark cs)
  let entries ← d.finish?
  some (.object (entriesToJson entries))

end ExchangeNode.Toml
