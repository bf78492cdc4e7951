import Tariff.Json.Basic
import Tariff.Price.Stored
import Tariff.Setup.Basic
import Tariff.Toml.Reader
import Tariff.Toml.Writer

/-!
# The stored form of setups

A setup is stored as TOML and shown as TOML or JSON. What is not stored is as in `Setup.blank`.

* `Preferences.read`, `RemoteSetup.read`, `Setup.read`: what is read.
* `Setup.ofText`, `Setup.toText`: the whole text. `Setup.text?`: the same, if all that is in the
  setup can be written. `Setup.json`: the setup as JSON.
-/

namespace Tariff

open Json (ofFloat ofUInt64)

/-- A unit is stored as its letter. -/
def TokenUnit.read (format : DataFormat) (d : Document) : Read TokenUnit :=
  d.asChoice format ofLetter?

namespace Preferences

/-- The fields, in the order in which a list gives their values. -/
def fields (format : DataFormat) : List (Field Preferences) :=
  [.of "default_format" (·.asText) fun v p => { p with format := v },
    .of "color" (·.asText) fun v p => { p with color := v },
    .of "token_unit" (TokenUnit.read format) fun v p => { p with unit := v },
    .of "quota_per_unit" (·.asUInt64) fun v p => { p with quotaPerUnit := v }]

def read (format : DataFormat) (d : Document) : Read Preferences :=
  readRecord format (fields format) initial d

def json (preferences : Preferences) : Json :=
  .object
    [("default_format", .string preferences.format), ("color", .string preferences.color),
      ("token_unit", .string preferences.unit.letter),
      ("quota_per_unit", ofUInt64 preferences.quotaPerUnit)]

/-- The preferences as the values of a section. -/
def values (preferences : Preferences) : List (String × Toml.Value) :=
  [("default_format", .text preferences.format), ("color", .text preferences.color),
    ("token_unit", .text preferences.unit.letter),
    ("quota_per_unit", .integer preferences.quotaPerUnit.toNat)]

end Preferences

/-- The fields of where tiered pricing is kept. -/
def pricingFileFields : List (Field (Option String)) :=
  [.of "file" (·.asOptional (·.asText)) fun v _ => v]

namespace RemoteSetup

/-- The fields, in the order in which a list gives their values. -/
def fields : List (Field RemoteSetup) :=
  [.of "base_url" (·.asOptional (·.asText)) fun v r => { r with baseUrl := v },
    .of "token_env" (·.asText) fun v r => { r with tokenVariable := v },
    .of "user_id" (·.asOptional (·.asUInt64)) fun v r => { r with userId := v }]

def read (format : DataFormat) (d : Document) : Read RemoteSetup :=
  readRecord format fields initial d

def json (remote : RemoteSetup) : Json :=
  .object
    [("base_url", remote.baseUrl.elim .null .string), ("token_env", .string remote.tokenVariable),
      ("user_id", remote.userId.elim .null ofUInt64)]

/-- The settings service as the values of a section; what is not set is left out. -/
def values (remote : RemoteSetup) : List (String × Toml.Value) :=
  (remote.baseUrl.toList.map fun url => ("base_url", .text url)) ++
    [("token_env", .text remote.tokenVariable)] ++
    remote.userId.toList.map fun id => ("user_id", .integer id.toNat)

end RemoteSetup

/-- A model record as the values of a section. -/
def ModelRecord.values (record : ModelRecord) : List (String × Toml.Value) :=
  [("model_name", .text record.name), ("quota_type", .integer record.billing.code),
    ("model_ratio", .real record.ratio), ("completion_ratio", .real record.completion),
    ("model_price", .real record.price), ("enable_groups", .texts record.groups)]

namespace Setup

/-- The fields, in the order in which a list gives their values. -/
def fields (format : DataFormat) : List (Field Setup) :=
  [.of "settings" (Preferences.read format) fun v s => { s with preferences := v },
    .of "pricing" (readRecord format pricingFileFields none) fun v s => { s with pricingFile := v },
    .of "remote" (RemoteSetup.read format) fun v s => { s with remote := v },
    .of "group_ratios" GroupTable.read fun v s => { s with groups := v },
    .of "models" (·.asList (ModelRecord.read format)) fun v s => { s with models := v }]

/-- Reads a setup from a document of TOML. -/
def read (d : Document) : Read Setup :=
  readRecord .toml (fields .toml) blank d

/-- Reads the text of a setup. -/
def ofText (s : String) : Read Setup :=
  Toml.decode read s

/-- The setup as the sections of a text. A list of models without elements is no list of sections,
and comes first. -/
def sections (setup : Setup) : List Toml.Section :=
  (if setup.models.isEmpty then [⟨.none, [("models", .texts [])]⟩] else []) ++
    [⟨.table "settings", setup.preferences.values⟩,
      ⟨.table "pricing", setup.pricingFile.toList.map fun file => ("file", .text file)⟩,
      ⟨.table "remote", setup.remote.values⟩,
      ⟨.table "group_ratios", setup.groups.entries.map fun e => (e.1, .real e.2)⟩] ++
    setup.models.map fun record => ⟨.item "models", record.values⟩

/-- The text of a setup. -/
def toText (setup : Setup) : String :=
  Toml.sectionsText setup.sections

/-- The text of the setup, if all that is in it can be written. -/
def text? (setup : Setup) : Option String :=
  if setup.sections.all (·.isWritable) then some setup.toText else none

def json (setup : Setup) : Json :=
  .object
    [("settings", setup.preferences.json),
      ("pricing", .object [("file", setup.pricingFile.elim .null .string)]),
      ("remote", setup.remote.json),
      ("group_ratios", setup.groups.json),
      ("models", .array (setup.models.map (·.json)))]

end Setup

end Tariff
