import ExchangeNode.Json.Basic

/-!
# TOML tables

A table is begun by its header, by a dotted key or, without either, because a longer header or key
leads through it. Each of these may happen once: a header may still take over a table that only a
longer header implied, and a dotted key may add to a table that dotted keys made, but no table is
reopened otherwise, and no key is given twice.
-/

namespace ExchangeNode.Toml

inductive Node where
  /-- A value, finished for good; an inline table is one. -/
  | value (json : Json)
  /-- A table that no header has begun yet is implied; one that a dotted key made is dotted. -/
  | table (implied dotted : Bool) (entries : List (String × Node))
  /-- The tables under a header in double brackets, latest first. -/
  | tables (elements : List (List (String × Node)))

abbrev Entries := List (String × Node)

mutual

def Node.toJson : Node → Json
  | .value json => json
  | .table _ _ entries => .object (entriesToJson entries)
  | .tables elements => .array (elementsToJson elements).reverse

def entriesToJson : List (String × Node) → List (String × Json)
  | [] => []
  | (key, node) :: rest => (key, node.toJson) :: entriesToJson rest

def elementsToJson : List (List (String × Node)) → List Json
  | [] => []
  | entries :: rest => .object (entriesToJson entries) :: elementsToJson rest

end

namespace Entries

/-- The entries with another node under a key. -/
def set (entries : Entries) (key : String) (node : Node) : Entries :=
  if entries.any (·.1 == key) then
    entries.map fun entry => if entry.1 == key then (key, node) else entry
  else entries ++ [(key, node)]

def erase (entries : Entries) (key : String) : Entries := entries.filter (·.1 != key)

/-- Change the table that a path leads to. Tables missing on the way are made. A dotted key leads
through no table that a header has begun; of tables in double brackets a path enters the latest. -/
def descend (byKey : Bool) (change : Bool → Entries → Option Entries) :
    List String → Bool → Entries → Option Entries
  | [], dotted, entries => change dotted entries
  | key :: path, _, entries =>
    match entries.lookup key with
    | none => (descend byKey change path byKey []).map fun inner =>
        entries.set key (.table true byKey inner)
    | some (.table implied dotted inner) =>
      if byKey && !implied then none
      else (descend byKey change path dotted inner).map fun inner =>
        entries.set key (.table implied dotted inner)
    | some (.tables (latest :: before)) =>
      (descend byKey change path false latest).map fun latest =>
        entries.set key (.tables (latest :: before))
    | some _ => none

/-- Give a dotted key a value. -/
def enter (entries : Entries) (path : List String) (value : Json) : Option Entries :=
  let way := path.dropLast
  let key := path.getLastD ""
  let change (dotted : Bool) (table : Entries) : Option Entries :=
    if dotted == way.isEmpty || table.any (·.1 == key) then none
    else some (table ++ [(key, .value value)])
  entries.descend true change way false

end Entries

/-- The table that is being filled, and the path its header gave. -/
structure Section where
  path : List String
  inArray : Bool
  entries : Entries

/-- A document being read: the finished tables, and the one being filled. -/
structure Document where
  root : Entries
  current : Section

namespace Document

def empty : Document := ⟨[], ⟨[], false, []⟩⟩

/-- All tables, with the current one in its place. -/
def finish? (d : Document) : Option Entries :=
  let key := d.current.path.getLastD ""
  let change (_ : Bool) (parent : Entries) : Option Entries :=
    if d.current.inArray then
      match parent.lookup key with
      | none => some (parent.set key (.tables [d.current.entries]))
      | some (.tables elements) => some (parent.set key (.tables (d.current.entries :: elements)))
      | some _ => none
    else if parent.any (·.1 == key) then none
    else some (parent.set key (.table false false d.current.entries))
  if d.current.path.isEmpty then some d.current.entries
  else d.root.descend false change d.current.path.dropLast false

/-- The entry a path leads to, in the tables there are. -/
def find? (path : List String) (entries : Entries) : Option Node :=
  match path with
  | [] => none
  | [key] => entries.lookup key
  | key :: path =>
    match entries.lookup key with
    | some (.table _ _ inner) => find? path inner
    | some (.tables (latest :: _)) => find? path latest
    | _ => none

/-- Begin a table by its header. -/
def beginTable (d : Document) (path : List String) : Option Document := do
  let root ← d.finish?
  let key := path.getLastD ""
  let taken (_ : Bool) (parent : Entries) : Option Entries := some (parent.erase key)
  let cleared ← root.descend false taken path.dropLast false
  match find? path root with
  | none => some ⟨cleared, ⟨path, false, []⟩⟩
  | some (.table true false entries) => some ⟨cleared, ⟨path, false, entries⟩⟩
  | some _ => none

/-- Begin a table by a header in double brackets. -/
def beginElement (d : Document) (path : List String) : Option Document := do
  let root ← d.finish?
  let root ← root.descend false (fun _ parent => some parent) path.dropLast false
  match find? path root with
  | none => some ⟨root, ⟨path, true, []⟩⟩
  | some (.tables _) => some ⟨root, ⟨path, true, []⟩⟩
  | some _ => none

def enter (d : Document) (path : List String) (value : Json) : Option Document := do
  let entries ← d.current.entries.enter path value
  some { d with current := { d.current with entries } }

end Document

end ExchangeNode.Toml
