import Tariff.Document.Basic
import Tariff.Table

/-!
# JSON values

* `Json`: the values of the format.
* `Json.ofFloat`: a number, or null for a float that is none.
* `Json.document`: what a text of the value holds.
-/

namespace Tariff

/-- A value of the format JSON. -/
inductive Json where
  | null
  | bool (value : Bool)
  | integer (value : Int)
  | real (value : Float)
  | string (value : String)
  | array (items : List Json)
  | object (fields : List (String × Json))

namespace Json

/-- A float as a value: one that is no number is null. -/
def ofFloat (x : Float) : Json :=
  if x.isFinite then real x else null

/-- A count as a value. -/
def ofUInt64 (n : UInt64) : Json :=
  integer n.toNat

/-- A table as an object. -/
def ofTable {α : Type} (value : α → Json) (table : Table α) : Json :=
  object (table.entries.map fun e => (e.1, value e.2))

mutual

/-- What a text of the value holds. -/
def document : Json → Document
  | null => .null
  | bool value => .flag value
  | integer value => .integer value
  | real value => if value.isFinite then .real value else .null
  | string value => .text value
  | array items => .list (documents items)
  | object fields => .record (fieldDocuments fields)

/-- What texts of the values hold. -/
def documents : List Json → List Document
  | [] => []
  | v :: vs => v.document :: documents vs

/-- What texts of the fields hold. -/
def fieldDocuments : List (String × Json) → List (Option String × Document)
  | [] => []
  | (key, v) :: vs => (some key, v.document) :: fieldDocuments vs

end

mutual

/-- The value of a document in which at most `depth` lists and records are nested; of fields with
one key the last counts. -/
def ofDocument? (depth : Nat) : Document → Option Json
  | .null => some null
  | .flag value => some (bool value)
  | .integer value => some (integer value)
  | .real value => some (real value)
  | .text value => some (string value)
  | .list items => if depth = 0 then none else (ofDocuments? (depth - 1) items).map array
  | .record fields =>
    if depth = 0 then none
    else (ofFields? (depth - 1) fields).map fun fields => object (Table.ofList fields).entries
  | .unusable => none
  | .broken => none

/-- The values of documents. -/
def ofDocuments? (depth : Nat) : List Document → Option (List Json)
  | [] => some []
  | d :: ds => (ofDocument? depth d).bind fun v => (ofDocuments? depth ds).map (v :: ·)

/-- The values of fields. -/
def ofFields? (depth : Nat) : List (Option String × Document) → Option (List (String × Json))
  | [] => some []
  | (none, _) :: _ => none
  | (some key, d) :: ds =>
    (ofDocument? depth d).bind fun v => (ofFields? depth ds).map ((key, v) :: ·)

end

end Json

end Tariff
