import Tariff.Json.Reader
import Tariff.Json.Writer
import Tariff.Text.Blank
import Tariff.Tier.Stored

/-!
# Options of the settings service

The settings service keeps all its settings as a list of options, each a key with any JSON value.
Two of them make up a snapshot. Where a key comes more than once, all its values must be readable
and the last one counts; all other keys are skipped.

* `OptionEntry.readAt`, `OptionEntry.read`: reads an option.
* `Snapshot.ofOptions`: the snapshot of a list of options. `Snapshot.options`: the options that hold
  a snapshot.
-/

namespace Tariff

open Text

/-- A setting of the service. -/
structure OptionEntry where
  key : String
  value : Json

namespace OptionEntry

/-- The fields, in the order in which a list gives their values; `depth` counts the lists and
records that a value stands in. -/
def fields (depth : Nat) : List (Field OptionEntry) :=
  [(Field.of "key" (·.asText) fun v e => { e with key := v }).needed,
    .of "value" (Json.asJson depth) fun v e => { e with value := v }]

/-- Reads an option whose value stands at a depth. -/
def readAt (depth : Nat) (d : Document) : Read OptionEntry :=
  readRecord .json (fields depth) ⟨"", .null⟩ d

/-- Reads an option in a list. -/
def read (d : Document) : Read OptionEntry :=
  readAt 2 d

end OptionEntry

/-- The option that switches tiered pricing. -/
def enabledKey : String := "token_tier_pricing.global_enabled"

/-- The option that holds the configurations. -/
def configsKey : String := "token_tier_pricing.model_configs"

/-- The message for options that cannot be read. -/
def optionsFailure : String := "Failed to parse model_configs option"

/-- Whether a value means yes: by itself, or by a text of any case with blanks around it. -/
def saysYes : Json → Bool
  | .bool value => value
  | .string s => (trim s.toList).map Char.toLower == "true".toList
  | _ => false

/-- The configurations that a value holds: by itself, or in a text. Nothing, and a blank text, holds
none. -/
def configsOfValue : Json → Read (Table TierConfig)
  | .null => .ok .empty
  | .string s => if isBlankText s then .ok .empty else Json.decode TierConfig.readTable s
  | v => TierConfig.readTable v.document

namespace Snapshot

/-- Takes over what an option says. -/
def withOption (snapshot : Snapshot) (entry : OptionEntry) : Read Snapshot :=
  if entry.key = enabledKey then .ok { snapshot with enabled := saysYes entry.value }
  else if entry.key = configsKey then
    (configsOfValue entry.value).map fun configs => { snapshot with configs := configs }
  else .ok snapshot

/-- The snapshot of a list of options. -/
def ofOptions (entries : List OptionEntry) : Read Snapshot :=
  entries.foldlM withOption empty

/-- The options that hold a snapshot, in the order in which they are sent. Both values are texts. -/
def options (snapshot : Snapshot) : List OptionEntry :=
  [⟨enabledKey, .string (if snapshot.enabled then "true" else "false")⟩,
    ⟨configsKey, .string (TierConfig.tableJson snapshot.configs).compact⟩]

end Snapshot

end Tariff
