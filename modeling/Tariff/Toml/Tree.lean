import Tariff.Document.Basic
import Tariff.Table

/-!
# The tree of a TOML text

A text builds up a tree of tables line by line. Where a table came from decides what may still be
added to it: a header may open a table once, after other headers have only gone through it; a key
with points may add to tables that such keys have made.

* `insertKey`: what the line of a key and its value adds.
* `openTable`, `openItem`: what the header of a table, or of one more table in a list, adds.
* `within`: a change inside the table that the last header has opened.
* `Node.document`: the document of a tree.
-/

namespace Tariff.Toml

/-- Where a table came from. -/
inductive Origin where
  /-- A header names it. -/
  | header
  /-- A header goes through it. -/
  | path
  /-- A key with points goes through it. -/
  | key
  deriving DecidableEq, Repr

/-- What stands under a key. -/
inductive Node where
  /-- A value, which nothing can be added to. -/
  | value (document : Document)
  | table (origin : Origin) (entries : List (String × Node))
  /-- A list of tables, each opened by a header. -/
  | tables (items : List (List (String × Node)))

/-- What a table holds, in the order in which it came. -/
abbrev Entries := List (String × Node)

/-- The entries with a node in the place of the one under a key. -/
def Entries.replace (entries : Entries) (key : String) (node : Node) : Entries :=
  entries.map fun e => if e.1 = key then (key, node) else e

/-- Changes the last element of a list. -/
def changeLast? {α : Type} (change : α → Option α) : List α → Option (List α)
  | [] => none
  | [a] => (change a).map fun a => [a]
  | a :: as => (changeLast? change as).map (a :: ·)

/-- Adds a node under a key, or under a key with points. The tables that points lead through must
have come from such keys, or headers must have gone through them. The last of them must have come
from such a key. -/
def insertKey : List String → Node → Entries → Option Entries
  | [], _, _ => none
  | [key], node, entries =>
    if (Table.lookup key entries).isSome then none else some (entries ++ [(key, node)])
  | key :: rest, node, entries =>
    let beyond := rest.length ≠ 1
    match Table.lookup key entries with
    | none => (insertKey rest node []).map fun inner => entries ++ [(key, .table .key inner)]
    | some (.table .key inner) =>
      (insertKey rest node inner).map fun inner => entries.replace key (.table .key inner)
    | some (.table .path inner) =>
      if beyond then
        (insertKey rest node inner).map fun inner => entries.replace key (.table .path inner)
      else none
    | some (.tables items) =>
      if beyond then
        (changeLast? (insertKey rest node) items).map fun items =>
          entries.replace key (.tables items)
      else none
    | some _ => none

/-- A change inside the table under a key, or inside the last of the tables under it. A table that
is not there is made. -/
def inside (key : String) (change : Entries → Option Entries) (entries : Entries) :
    Option Entries :=
  match Table.lookup key entries with
  | none => (change []).map fun inner => entries ++ [(key, .table .path inner)]
  | some (.table origin inner) =>
    (change inner).map fun inner => entries.replace key (.table origin inner)
  | some (.tables items) =>
    (changeLast? change items).map fun items => entries.replace key (.tables items)
  | some (.value _) => none

/-- A change inside the table at the end of a path. -/
def within (path : List String) (change : Entries → Option Entries) : Entries → Option Entries :=
  path.foldr inside change

/-- Opens a table under a key; one that headers have gone through moves to the end. -/
def openUnder (key : String) (entries : Entries) : Option Entries :=
  match Table.lookup key entries with
  | none => some (entries ++ [(key, .table .header [])])
  | some (.table .path inner) =>
    some (entries.filter (·.1 ≠ key) ++ [(key, .table .header inner)])
  | some _ => none

/-- Opens one more table in the list under a key. -/
def openItemUnder (key : String) (entries : Entries) : Option Entries :=
  match Table.lookup key entries with
  | none => some (entries ++ [(key, .tables [[]])])
  | some (.tables items) => some (entries.replace key (.tables (items ++ [[]])))
  | some _ => none

/-- Opens the table that a header names. -/
def openTable (path : List String) (entries : Entries) : Option Entries :=
  path.getLast?.bind fun key => within path.dropLast (openUnder key) entries

/-- Opens one more table in the list that a header names. -/
def openItem (path : List String) (entries : Entries) : Option Entries :=
  path.getLast?.bind fun key => within path.dropLast (openItemUnder key) entries

/-! ## The document -/

mutual

/-- The document of a node. -/
def Node.document : Node → Document
  | .value d => d
  | .table _ entries => .record (fieldsOf entries)
  | .tables items => .list (recordsOf items)

/-- The fields of a record. -/
def fieldsOf : List (String × Node) → List (Option String × Document)
  | [] => []
  | (key, node) :: rest => (some key, node.document) :: fieldsOf rest

/-- The records of a list of tables. -/
def recordsOf : List (List (String × Node)) → List Document
  | [] => []
  | entries :: rest => .record (fieldsOf entries) :: recordsOf rest

end

end Tariff.Toml
