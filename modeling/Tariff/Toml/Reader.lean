import Tariff.Document.Record
import Tariff.Toml.Lexer
import Tariff.Toml.Tree

/-!
# Reading TOML

A text is read token by token. The reader keeps the tree so far, the path of the table that the last
header opened, and what may come next; lists and inline tables that are still open are on a stack. A
text is refused as a whole at the first token that does not belong.

* `Toml.readText?`: the document of a text.
* `Toml.decode`: reads a text as something.
* `nestingLimit`: how deep lists and inline tables, and how long keys with points, may become.
-/

namespace Tariff.Toml

/-- Lists and inline tables are nested less deep than this, and keys have fewer parts. -/
def nestingLimit : Nat := 80

/-! ## Keys -/

/-- A part of a key: a name, or the point between two names. -/
inductive KeyPart where
  | name (s : String)
  | point
  deriving DecidableEq, Repr

/-- Whether a character may stand in a name without quotes. -/
def isNameChar (c : Char) : Bool :=
  c.isAlphanum || c == '_' || c == '-'

/-- The parts of a word: the names between its points, and the points. -/
def wordParts (cs : List Char) : List KeyPart :=
  let names := (cs.splitOn '.').map fun name =>
    if name = [] then [] else [KeyPart.name (String.ofList name)]
  [KeyPart.point].intercalate names

/-- The parts of a key that a token holds. -/
def keyParts? : Token → Option (List KeyPart)
  | .word cs => if cs.all fun c => isNameChar c || c == '.' then some (wordParts cs) else none
  | .string cs => some [.name (String.ofList cs)]
  | _ => none

/-- A key that is partly read. -/
structure KeyPath where
  /-- The names so far, in reverse order. -/
  names : List String
  /-- Whether a name came last, and not a point. -/
  complete : Bool
  deriving DecidableEq, Repr

namespace KeyPath

/-- Nothing of a key. -/
def empty : KeyPath := ⟨[], false⟩

/-- Adds a part; names and points take turns. -/
def add? (path : KeyPath) : KeyPart → Option KeyPath
  | .name s => if path.complete then none else some ⟨s :: path.names, true⟩
  | .point => if path.complete then some ⟨path.names, false⟩ else none

/-- Adds the parts that a token holds. -/
def addToken? (path : KeyPath) (t : Token) : Option KeyPath :=
  (keyParts? t).bind (·.foldlM add? path)

/-- The names of a whole key. -/
def whole? (path : KeyPath) : Option (List String) :=
  if path.complete ∧ path.names.length < nestingLimit then some path.names.reverse else none

end KeyPath

/-! ## States -/

/-- A list or inline table that is still open. -/
inductive Frame where
  /-- A list, with its items in reverse order. -/
  | list (items : List Document)
  /-- An inline table, with the key of the value that is read. -/
  | record (entries : Entries) (key : List String)

/-- What may come next. `key` is the key of the line. -/
inductive State where
  /-- A line. -/
  | line
  /-- The rest of the key of a line. -/
  | key (path : KeyPath)
  /-- The rest of a header; `item` if it opens one more table in a list. -/
  | header (item : Bool) (path : KeyPath)
  /-- A value. -/
  | value (key : List String) (outer : List Frame)
  /-- An item of a list, or its end. -/
  | item (key : List String) (items : List Document) (outer : List Frame)
  /-- A comma, or the end of a list. -/
  | afterItem (key : List String) (items : List Document) (outer : List Frame)
  /-- The first key of an inline table, or its end. -/
  | firstField (key : List String) (outer : List Frame)
  /-- The rest of a key of an inline table. -/
  | field (key : List String) (entries : Entries) (path : KeyPath) (outer : List Frame)
  /-- A comma, or the end of an inline table. -/
  | afterField (key : List String) (entries : Entries) (outer : List Frame)
  /-- The end of the line. -/
  | lineEnd

/-- A text that is partly read. -/
structure Reader where
  tree : Entries
  /-- The path of the table that the last header opened. -/
  table : List String
  state : State

namespace Reader

/-- Goes on to a state. -/
def goTo (r : Reader) (state : State) : Option Reader :=
  some { r with state := state }

/-- Takes in a value that is whole. -/
def deliver (r : Reader) (key : List String) (d : Document) : List Frame → Option Reader
  | [] =>
    (within r.table (insertKey key (.value d)) r.tree).map fun tree =>
      { r with tree := tree, state := .lineEnd }
  | .list items :: outer => r.goTo (.afterItem key (d :: items) outer)
  | .record entries field :: outer =>
    (insertKey field (.value d) entries).bind fun entries => r.goTo (.afterField key entries outer)

/-- Opens a list or an inline table inside others. -/
def nest (r : Reader) (outer : List Frame) (state : State) : Option Reader :=
  if outer.length + 1 < nestingLimit then r.goTo state else none

/-- The first token of a value. -/
def begin (r : Reader) (key : List String) (outer : List Frame) : Token → Option Reader
  | .word cs => (wordValue? cs).bind fun d => r.deliver key d outer
  | .string cs => r.deliver key (.text (String.ofList cs)) outer
  | .block cs => r.deliver key (.text (String.ofList cs)) outer
  | .openBracket => r.nest outer (.item key [] outer)
  | .openBrace => r.nest outer (.firstField key outer)
  | _ => none

/-- The end of a header. -/
def finishHeader (r : Reader) (item : Bool) (path : KeyPath) : Option Reader :=
  path.whole?.bind fun path =>
    ((if item then openItem else openTable) path r.tree).map fun tree => ⟨tree, path, .lineEnd⟩

/-- A token that has one bracket at most. -/
def step (r : Reader) (t : Token) : Option Reader :=
  match r.state, t with
  | .line, .newline => some r
  | .line, .openBracket => r.goTo (.header false .empty)
  | .line, t => (KeyPath.empty.addToken? t).bind fun path => r.goTo (.key path)
  | .key path, .equals => path.whole?.bind fun key => r.goTo (.value key [])
  | .key path, t => (path.addToken? t).bind fun path => r.goTo (.key path)
  | .header false path, .closeBracket => r.finishHeader false path
  | .header item path, t => (path.addToken? t).bind fun path => r.goTo (.header item path)
  | .value key outer, t => r.begin key outer t
  | .item _ _ _, .newline => some r
  | .item key items outer, .closeBracket => r.deliver key (.list items.reverse) outer
  | .item key items outer, t => r.begin key (.list items :: outer) t
  | .afterItem _ _ _, .newline => some r
  | .afterItem key items outer, .comma => r.goTo (.item key items outer)
  | .afterItem key items outer, .closeBracket => r.deliver key (.list items.reverse) outer
  | .afterItem _ _ _, _ => none
  | .firstField key outer, .closeBrace => r.deliver key (.record []) outer
  | .firstField key outer, t =>
    (KeyPath.empty.addToken? t).bind fun path => r.goTo (.field key [] path outer)
  | .field key entries path outer, .equals =>
    path.whole?.bind fun field => r.goTo (.value key (.record entries field :: outer))
  | .field key entries path outer, t =>
    (path.addToken? t).bind fun path => r.goTo (.field key entries path outer)
  | .afterField key entries outer, .comma => r.goTo (.field key entries .empty outer)
  | .afterField key entries outer, .closeBrace => r.deliver key (.record (fieldsOf entries)) outer
  | .afterField _ _ _, _ => none
  | .lineEnd, .newline => r.goTo .line
  | .lineEnd, _ => none

/-- Any token. Two brackets begin or end a header of its own kind, and are two tokens in a value. -/
def stepToken (r : Reader) (t : Token) : Option Reader :=
  match r.state, t with
  | .line, .openBrackets => r.goTo (.header true .empty)
  | .header true path, .closeBrackets => r.finishHeader true path
  | _, .openBrackets => (r.step .openBracket).bind (·.step .openBracket)
  | _, .closeBrackets => (r.step .closeBracket).bind (·.step .closeBracket)
  | _, t => r.step t

/-- The document of a text that ends here. -/
def finish? (r : Reader) : Option Document :=
  match r.state with
  | .line => some (.record (fieldsOf r.tree))
  | .lineEnd => some (.record (fieldsOf r.tree))
  | _ => none

end Reader

/-- A text without the mark of its encoding, which may stand at its start. -/
def withoutMark : List Char → List Char
  | '\ufeff' :: rest => rest
  | cs => cs

/-- The document of a text. -/
def readText? (s : String) : Option Document :=
  ((tokens (withoutMark s.toList)).foldlM Reader.stepToken ⟨[], [], .line⟩).bind Reader.finish?

/-- Reads a text as what `read` reads; a text that is not of the format is refused first. -/
def decode {α : Type} (read : Document → Read α) (s : String) : Read α :=
  match readText? s with
  | some d => read d
  | none => .error .malformed

end Tariff.Toml
