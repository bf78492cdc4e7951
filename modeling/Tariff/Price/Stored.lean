import Tariff.Document.Record
import Tariff.Json.Basic
import Tariff.Price.Model

/-!
# The stored form of model records

* `ModelRecord.read`, `ModelRecord.json`: a record in any data format, and as JSON.
* `GroupTable.read`, `GroupTable.json`: the same for the multipliers of groups.
-/

namespace Tariff

open Json (ofFloat)

/-- A way of billing is stored as a code of one byte. -/
def Billing.read (d : Document) : Read Billing :=
  (d.asNatural 256).bind fun code =>
    match Billing.ofCode? code with
    | some billing => .ok billing
    | none => .error (.billing code)

namespace ModelRecord

/-- The record of which nothing but the name is stored. -/
def blank (name : String) : ModelRecord := ⟨name, .metered, 0.0, 1.0, 0.0, []⟩

/-- The fields, in the order in which a list gives their values. -/
def fields : List (Field ModelRecord) :=
  [(Field.of "model_name" (·.asText) fun v r => { r with name := v }).needed,
    .of "quota_type" Billing.read fun v r => { r with billing := v },
    .of "model_ratio" (·.asFloat) fun v r => { r with ratio := v },
    .of "completion_ratio" (·.asFloat) fun v r => { r with completion := v },
    .of "model_price" (·.asFloat) fun v r => { r with price := v },
    .of "enable_groups" (·.asList (·.asText)) fun v r => { r with groups := v }]

def read (format : DataFormat) (d : Document) : Read ModelRecord :=
  readRecord format fields (blank "") d

def json (record : ModelRecord) : Json :=
  .object
    [("model_name", .string record.name),
      ("quota_type", .integer record.billing.code),
      ("model_ratio", ofFloat record.ratio),
      ("completion_ratio", ofFloat record.completion),
      ("model_price", ofFloat record.price),
      ("enable_groups", .array (record.groups.map .string))]

end ModelRecord

namespace GroupTable

def read (d : Document) : Read GroupTable :=
  d.asTable (·.asFloat)

def json (groups : GroupTable) : Json :=
  .ofTable ofFloat groups

end GroupTable

end Tariff
