import Tariff.Document.Record
import Tariff.Json.Basic
import Tariff.Json.Reader
import Tariff.Json.Writer
import Tariff.Tier.Snapshot

/-!
# The stored form of snapshots

A snapshot is stored as JSON. A rule is stored flat, with the numbers of both ways of pricing; it is
priced in dollars if one of its two prices is not zero.

* `FlatRule`: the flat form. `FlatRule.rule`, `Rule.flat`: from it and to it.
* `Rule.json`, `TierConfig.json`, `Snapshot.json`: what is written.
* `Rule.read`, `TierConfig.read`, `Snapshot.read`: what is read. Every field has a default.
* `Snapshot.ofText`, `Snapshot.toText`: the whole text.
-/

namespace Tariff

open Json (ofFloat ofUInt64)

/-! ## Rules -/

/-- A rule with the numbers of both ways of pricing. -/
structure FlatRule where
  name : String
  bounds : TokenBounds
  inputRatio : Float
  completionRatio : Float
  inputPrice : Float
  outputPrice : Float
  outputRatio : Option Float
  deriving DecidableEq

namespace FlatRule

/-- The rule of which nothing is stored. -/
def blank : FlatRule := ⟨"", .unlimited, 0.0, 1.0, 0.0, 0.0, none⟩

/-- Whether the prices count, and not the ratios. -/
def isAbsolute (flat : FlatRule) : Bool :=
  flat.inputPrice != 0.0 || flat.outputPrice != 0.0

/-- The rule that is stored. -/
def rule (flat : FlatRule) : Rule where
  name := flat.name
  bounds := flat.bounds
  pricing :=
    if flat.isAbsolute then .absolute flat.inputPrice flat.outputPrice
    else .ratio flat.inputRatio flat.completionRatio flat.outputRatio

/-- The fields, in the order in which a list gives their values. -/
def fields : List (Field FlatRule) :=
  [.of "name" (·.asText) fun v r => { r with name := v },
    .of "min_input_tokens" (·.asUInt64) fun v r => { r with bounds.input.min := v },
    .of "max_input_tokens" (·.asUInt64) fun v r => { r with bounds.input.max := v },
    .of "min_output_tokens" (·.asUInt64) fun v r => { r with bounds.output.min := v },
    .of "max_output_tokens" (·.asUInt64) fun v r => { r with bounds.output.max := v },
    .of "input_ratio" (·.asFloat) fun v r => { r with inputRatio := v },
    .of "completion_ratio" (·.asFloat) fun v r => { r with completionRatio := v },
    .of "input_price" (·.asFloat) fun v r => { r with inputPrice := v },
    .of "output_price" (·.asFloat) fun v r => { r with outputPrice := v },
    .of "output_ratio" (·.asOptional (·.asFloat)) fun v r => { r with outputRatio := v }]

/-- The flat form as JSON; an output ratio is left out where there is none. -/
def json (flat : FlatRule) : Json :=
  .object <|
    [("name", .string flat.name),
      ("min_input_tokens", ofUInt64 flat.bounds.input.min),
      ("max_input_tokens", ofUInt64 flat.bounds.input.max),
      ("min_output_tokens", ofUInt64 flat.bounds.output.min),
      ("max_output_tokens", ofUInt64 flat.bounds.output.max),
      ("input_ratio", ofFloat flat.inputRatio),
      ("completion_ratio", ofFloat flat.completionRatio),
      ("input_price", ofFloat flat.inputPrice),
      ("output_price", ofFloat flat.outputPrice)] ++
    flat.outputRatio.toList.map fun ratio => ("output_ratio", ofFloat ratio)

end FlatRule

/-- A pricing as JSON, with its way of pricing; an output ratio is left out where there is none. -/
def Pricing.json : Pricing → Json
  | ratio input completion output =>
    .object <|
      [("mode", .string "ratio"), ("input_ratio", ofFloat input),
        ("completion_ratio", ofFloat completion)] ++
      output.toList.map fun ratio => ("output_ratio", ofFloat ratio)
  | absolute input output =>
    .object
      [("mode", .string "absolute"), ("input_price", ofFloat input),
        ("output_price", ofFloat output)]

/-- A resolution as JSON. -/
def Resolution.json (tier : Resolution) : Json :=
  .object
    [("config_name", .string tier.config), ("rule_name", .string tier.rule),
      ("pricing", tier.pricing.json)]

namespace Rule

/-- The flat form: the numbers of the other way of pricing are as if they were not stored. -/
def flat (rule : Rule) : FlatRule :=
  match rule.pricing with
  | .ratio input completion output => ⟨rule.name, rule.bounds, input, completion, 0.0, 0.0, output⟩
  | .absolute input output => ⟨rule.name, rule.bounds, 0.0, 1.0, input, output, none⟩

def json (rule : Rule) : Json :=
  rule.flat.json

def read (d : Document) : Read Rule :=
  (readRecord .json FlatRule.fields .blank d).map (·.rule)

end Rule

/-! ## Configurations -/

/-- Patterns are stored as one text; nothing stands for none. -/
def ModelPatterns.read (d : Document) : Read ModelPatterns :=
  (d.asOptional (·.asText)).bind fun
    | none => .ok .empty
    | some raw => (ModelPatterns.parse raw).mapError .pattern

namespace TierConfig

/-- The configuration of which nothing is stored. -/
def blank : TierConfig := ⟨false, .empty, 0, []⟩

/-- The fields, in the order in which a list gives their values. -/
def fields : List (Field TierConfig) :=
  [.of "enabled" (·.asFlag) fun v c => { c with enabled := v },
    .of "models" ModelPatterns.read fun v c => { c with models := v },
    .of "priority" (·.asInt64) fun v c => { c with priority := v },
    .of "rules" (·.asList Rule.read) fun v c => { c with rules := v }]

def json (config : TierConfig) : Json :=
  .object
    [("enabled", .bool config.enabled),
      ("models", .string config.models.text),
      ("priority", .integer config.priority.toInt),
      ("rules", .array (config.rules.map Rule.json))]

def read (d : Document) : Read TierConfig :=
  readRecord .json fields blank d

/-- Named configurations. -/
def readTable (d : Document) : Read (Table TierConfig) :=
  d.asTable read

/-- Named configurations as JSON. -/
def tableJson (configs : Table TierConfig) : Json :=
  .ofTable json configs

end TierConfig

/-! ## Snapshots -/

namespace Snapshot

/-- The fields, in the order in which a list gives their values. -/
def fields : List (Field Snapshot) :=
  [.of "global_enabled" (·.asFlag) fun v s => { s with enabled := v },
    .of "model_configs" TierConfig.readTable fun v s => { s with configs := v }]

def json (snapshot : Snapshot) : Json :=
  .object
    [("global_enabled", .bool snapshot.enabled),
      ("model_configs", TierConfig.tableJson snapshot.configs)]

def read (d : Document) : Read Snapshot :=
  readRecord .json fields empty d

/-- Reads the text of a snapshot. -/
def ofText (s : String) : Read Snapshot :=
  Json.decode read s

/-- The text of a snapshot. -/
def toText (snapshot : Snapshot) : String :=
  snapshot.json.pretty

end Snapshot

end Tariff
