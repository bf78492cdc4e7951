import Tariff.Document.Basic
import Tariff.Document.Fault
import Tariff.Number.Scientific
import Tariff.Table

/-!
# Reading documents

* `Document.asFlag`, `asText`, …: documents of one kind.
* `Field`, `readRecord`: a record with known fields. It may come as fields under keys, where unknown
  ones are skipped and a known one may stand once; or as a list of its values in the order of the
  fields. A field that is missing keeps its default, unless it is required.
* `asList`, `asTable`: any number of documents of one kind; of entries with one key the last counts.
* `asChoice`: one of several words.
* `DataFormat`: what the data formats differ in.
-/

namespace Tariff

-- Powers are those of the core library.
attribute [local instance (2000)] instPowNat

/-- What reading comes to. -/
abbrev Read (α : Type) := Except Fault α

/-- The data formats, which differ in what they let pass. -/
inductive DataFormat where
  | json
  | toml
  deriving DecidableEq, Repr

namespace DataFormat

/-- Whether a list that stands for a record may have more values than the record has fields. -/
def allowsSurplus : DataFormat → Bool
  | json => false
  | toml => true

/-- Whether a document says no more than that something is there. -/
def isBare : DataFormat → Document → Bool
  | json, .null => true
  | toml, .list [] => true
  | toml, .record [] => true
  | _, _ => false

end DataFormat

namespace Document

def asFlag : Document → Read Bool
  | flag value => .ok value
  | _ => .error .malformed

def asText : Document → Read String
  | text value => .ok value
  | _ => .error .malformed

/-- A whole number from zero up to, and without, `limit`. -/
def asNatural (limit : Nat) : Document → Read Nat
  | integer (.ofNat n) => if n < limit then .ok n else .error .malformed
  | _ => .error .malformed

/-- A whole number of 64 bits. -/
def asUInt64 (d : Document) : Read UInt64 :=
  (d.asNatural (2 ^ (64 : Nat))).map UInt64.ofNat

/-- A whole number of 64 bits, one of them for the sign. -/
def asInt64 : Document → Read Int64
  | integer n =>
    if -2 ^ (63 : Nat) ≤ n ∧ n < 2 ^ (63 : Nat) then .ok (Int64.ofInt n) else .error .malformed
  | _ => .error .malformed

/-- The float nearest to a whole number. -/
def floatOfInt (n : Int) : Float :=
  (⟨decide (n < 0), n.natAbs, 0⟩ : Number.Numeral).toFloat

/-- Any number. -/
def asFloat : Document → Read Float
  | integer n => .ok (floatOfInt n)
  | real x => .ok x
  | _ => .error .malformed

/-- Nothing, or what `read` reads. -/
def asOptional {α : Type} (read : Document → Read α) : Document → Read (Option α)
  | null => .ok none
  | d => (read d).map some

/-- Any number of documents. -/
def asList {α : Type} (read : Document → Read α) : Document → Read (List α)
  | list items => items.mapM read
  | _ => .error .malformed

/-- One entry of a table. -/
def asEntry {α : Type} (read : Document → Read α) : Option String × Document → Read (String × α)
  | (none, _) => .error .malformed
  | (some key, d) => (read d).map fun value => (key, value)

/-- Documents under any keys; of those with one key the last counts. -/
def asTable {α : Type} (read : Document → Read α) : Document → Read (Table α)
  | record fields => (fields.mapM (asEntry read)).map Table.ofList
  | _ => .error .malformed

/-- One of several words. A word may also be the only key of a record, over a document that says no
more. -/
def asChoice {α : Type} (format : DataFormat) (choose : String → Option α) : Document → Read α
  | text word => (choose word).elim (.error .malformed) .ok
  | record [(some word, d)] =>
    if format.isBare d then (choose word).elim (.error .malformed) .ok else .error .malformed
  | _ => .error .malformed

end Document

/-- A field of a record of type `α`. -/
structure Field (α : Type) where
  /-- The key of the field. -/
  name : String
  /-- Whether a record without the field is refused. -/
  required : Bool
  /-- Reads the field into a record. -/
  read : Document → α → Read α

/-- A field that `read` reads and `set` stores. -/
def Field.of {α β : Type} (name : String) (read : Document → Read β) (set : β → α → α) : Field α :=
  ⟨name, false, fun d record => (read d).map (set · record)⟩

/-- The same field as a required one. -/
def Field.needed {α : Type} (field : Field α) : Field α :=
  { field with required := true }

variable {α : Type}

/-- Reads the fields under keys in order; `seen` are the known ones met before. -/
def readFields (fields : List (Field α)) :
    List (Option String × Document) → List String → α → Read (α × List String)
  | [], seen, record => .ok (record, seen)
  | (none, _) :: _, _, _ => .error .malformed
  | (some key, d) :: rest, seen, record =>
    match fields.find? (·.name == key) with
    | none => if d.isIntact then readFields fields rest seen record else .error .malformed
    | some field =>
      if seen.contains key then .error .malformed
      else field.read d record >>= readFields fields rest (key :: seen)

/-- Reads a list of values, one for each field in order. -/
def readValues (format : DataFormat) : List (Field α) → List Document → α → Read α
  | [], [], record => .ok record
  | [], _ :: _, record => if format.allowsSurplus then .ok record else .error .malformed
  | fields, [], record =>
    if fields.any (·.required) then .error .malformed else .ok record
  | field :: fields, d :: ds, record => field.read d record >>= readValues format fields ds

/-- Reads a record; fields that are missing are as in `start`. -/
def readRecord (format : DataFormat) (fields : List (Field α)) (start : α) : Document → Read α
  | .record entries => do
    let (record, seen) ← readFields fields entries [] start
    if fields.all fun field => !field.required || seen.contains field.name then .ok record
    else .error .malformed
  | .list items => readValues format fields items start
  | _ => .error .malformed

end Tariff
