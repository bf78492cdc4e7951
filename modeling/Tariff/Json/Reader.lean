import Tariff.Document.Record
import Tariff.Json.Basic
import Tariff.Json.Lexer

/-!
# Reading JSON

The document of a text is built token by token, with the lists and records that are still open on a
stack. A token that does not belong leaves a broken place behind, and closes all that is open.

* `Json.readText`: the document of a text, and whether anything but blanks follows it.
* `Json.decode`: reads a text as something. Faults come in the order of the text, so what follows
  the document counts last.
* `Json.depthLimit`: how deep the lists and records of a value that is kept may be nested.
-/

namespace Tariff.Json

/-- A list or record that is still open, with what it holds in reverse order. -/
inductive Frame where
  | list (items : List Document)
  | record (fields : List (Option String × Document)) (key : Option String)

/-- What may come next. -/
inductive State where
  /-- A value. -/
  | value (outer : List Frame)
  /-- The first item of a list, or its end. -/
  | firstItem (outer : List Frame)
  /-- A comma, or the end of a list. -/
  | afterItem (items : List Document) (outer : List Frame)
  /-- The first key of a record, or its end. -/
  | firstKey (outer : List Frame)
  /-- A key. -/
  | nextKey (fields : List (Option String × Document)) (outer : List Frame)
  /-- The colon behind a key. -/
  | colon (fields : List (Option String × Document)) (key : Option String) (outer : List Frame)
  /-- A comma, or the end of a record. -/
  | afterField (fields : List (Option String × Document)) (outer : List Frame)
  /-- Nothing. -/
  | done (document : Document) (ended : Bool)

namespace State

/-- The state behind a value. -/
def deliver (d : Document) : List Frame → State
  | [] => done d true
  | .list items :: outer => afterItem (d :: items) outer
  | .record fields key :: outer => afterField ((key, d) :: fields) outer

/-- The document with all that is still open closed behind it. -/
def closeAll (d : Document) : List Frame → Document
  | [] => d
  | .list items :: outer => closeAll (.list (d :: items).reverse) outer
  | .record fields key :: outer => closeAll (.record ((key, d) :: fields).reverse) outer

/-- The state behind a token that does not belong in what is open. -/
def fail (outer : List Frame) : State :=
  done (closeAll .broken outer) true

/-- The state behind the first token of a value. -/
def begin (outer : List Frame) : Token → State
  | .openArray => firstItem outer
  | .openObject => firstKey outer
  | .string (some s) => deliver (.text s) outer
  | .string none => deliver .unusable outer
  | .scalar d => deliver d outer
  | _ => fail outer

/-- The state behind a token. -/
def step : State → Token → State
  | value outer, t => begin outer t
  | firstItem outer, .closeArray => deliver (.list []) outer
  | firstItem outer, t => begin (.list [] :: outer) t
  | afterItem items outer, .comma => value (.list items :: outer)
  | afterItem items outer, .closeArray => deliver (.list items.reverse) outer
  | afterItem items outer, _ => fail (.list items :: outer)
  | firstKey outer, .closeObject => deliver (.record []) outer
  | firstKey outer, .string k => colon [] k outer
  | firstKey outer, _ => fail (.record [] none :: outer)
  | nextKey fields outer, .string k => colon fields k outer
  | nextKey fields outer, _ => fail (.record fields none :: outer)
  | colon fields k outer, .colon => value (.record fields k :: outer)
  | colon fields _ outer, _ => fail (.record fields none :: outer)
  | afterField fields outer, .comma => nextKey fields outer
  | afterField fields outer, .closeObject => deliver (.record fields.reverse) outer
  | afterField fields outer, _ => fail (.record fields none :: outer)
  | done d _, _ => done d false

/-- What a text holds that ends in a state, and whether it holds nothing more. -/
def finish : State → Document × Bool
  | value outer => (closeAll .broken outer, true)
  | firstItem outer => (closeAll .broken (.list [] :: outer), true)
  | afterItem items outer => (closeAll .broken (.list items :: outer), true)
  | firstKey outer => (closeAll .broken (.record [] none :: outer), true)
  | nextKey fields outer => (closeAll .broken (.record fields none :: outer), true)
  | colon fields _ outer => (closeAll .broken (.record fields none :: outer), true)
  | afterField fields outer => (closeAll .broken (.record fields none :: outer), true)
  | done d ended => (d, ended)

end State

/-- The document of a text, and whether anything but blanks follows it. -/
def readText (s : String) : Document × Bool :=
  ((tokens s.toList).foldl State.step (.value [])).finish

/-- Reads a text as what `read` reads. -/
def decode {α : Type} (read : Document → Read α) (s : String) : Read α :=
  let (document, ended) := readText s
  (read document).bind fun value => if ended then .ok value else .error .malformed

/-- Lists and records of a value that is kept are nested less deep than this. -/
def depthLimit : Nat := 128

/-- Any value; `depth` counts the lists and records that it stands in. -/
def asJson (depth : Nat) (d : Document) : Read Json :=
  match Json.ofDocument? (depthLimit - 1 - depth) d with
  | some v => .ok v
  | none => .error .malformed

end Tariff.Json
