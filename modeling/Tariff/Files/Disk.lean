import Tariff.Files.Path
import Tariff.Table

/-!
# Disks

The files and folders that a program can reach, seen from the folder it runs in.

* `Contents`: what is found where a path leads.
* `Disk.contents`: looks a path up. `Disk.save?`: writes a file, with the folders that it needs.
* `Disk.texts`: all files that hold text.
-/

namespace Tariff

open Text

/-- What is found where a path leads. -/
inductive Contents where
  | missing
  | unreadable (reason : String)
  | text (s : String)
  deriving DecidableEq, Repr

namespace Contents

/-- Whether anything is found. -/
def isThere : Contents → Bool
  | missing => false
  | _ => true

end Contents

/-- A file or a folder. -/
inductive Entry where
  | folder
  /-- A file, with its text if it holds text. -/
  | file (text : Option String)
  deriving DecidableEq, Repr

/-- Files and folders under their paths, which have neither idle names nor double points. The folder
that the program runs in is always there. -/
structure Disk where
  entries : Table Entry

/-- The names on the way to a file or folder. -/
abbrev Place := List String

namespace Disk

/-- The disk without files. -/
def empty : Disk := ⟨.empty⟩

/-- What is at a place. -/
def entry? (disk : Disk) (place : Place) : Option Entry :=
  if place = [] then some .folder else disk.entries.get? (joined "/" place)

/-- Puts a file or folder at a place. -/
def put (disk : Disk) (place : Place) (entry : Entry) : Disk :=
  if place = [] then disk else ⟨disk.entries.insert (joined "/" place) entry⟩

/-- Whether a name does not go on to another place below. -/
def isTurn (name : String) : Bool :=
  name == "" || name == "." || name == ".."

/-- The place that a name leads to. -/
def next (place : Place) (name : String) : Place :=
  if name = ".." then place.dropLast
  else if isTurn name then place
  else place ++ [name]

/-- The place that names lead to; all but the last of them must lead to folders. -/
def walk? (disk : Disk) (place : Place) : List String → Option Place
  | [] => some place
  | name :: names =>
    if disk.entry? place = some .folder then disk.walk? (next place name) names else none

/-- The place that a path leads to. -/
def place? (disk : Disk) (path : String) : Option Place :=
  if path = "" then none else disk.walk? [] (pieces '/' path)

/-- What is found where a path leads. -/
def contents (disk : Disk) (path : String) : Contents :=
  match (disk.place? path).bind disk.entry? with
  | none => .missing
  | some .folder => .unreadable "Is a directory (os error 21)"
  | some (.file none) => .unreadable "stream did not contain valid UTF-8"
  | some (.file (some s)) => .text s

/-- Makes the folders that names lead to. -/
def makeFolders? (disk : Disk) (place : Place) : List String → Option Disk
  | [] => some disk
  | name :: names =>
    let place := next place name
    match disk.entry? place with
    | none => (disk.put place .folder).makeFolders? place names
    | some .folder => disk.makeFolders? place names
    | some (.file _) => none

/-- Writes a file into a folder that is there. -/
def write? (disk : Disk) (path text : String) : Option Disk :=
  if (pieces '/' path).getLast?.all isTurn then none
  else
    (disk.place? path).bind fun place =>
      if disk.entry? place = some .folder then none
      else some (disk.put place (.file (some text)))

/-- Writes a file, and makes the folders that are missing on the way to it. -/
def save? (disk : Disk) (path text : String) : Option Disk :=
  match Path.parent? path with
  | none => none
  | some "" => disk.write? path text
  | some folder => (disk.makeFolders? [] (pieces '/' folder)).bind (·.write? path text)

/-- The disk that files are written to one by one. -/
def ofTexts (files : List (String × String)) : Disk :=
  files.foldl (fun disk file => (disk.save? file.1 file.2).getD disk) empty

/-- The files that hold text, with their paths. -/
def texts (disk : Disk) : List (String × String) :=
  disk.entries.entries.filterMap fun (path, entry) =>
    match entry with
    | .file (some text) => some (path, text)
    | _ => none

/-- The files that hold other text than before, or were not there before. -/
def changes (before after : Disk) : List (String × String) :=
  after.texts.filter fun (path, text) => before.entries.get? path != some (.file (some text))

end Disk

end Tariff
