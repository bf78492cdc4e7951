import Tariff.Edit.Draft
import Tariff.Tier.Snapshot

/-!
# Issues of snapshots

What is worth mending in a snapshot before it is used. Requests are priced all the same.

* `Snapshot.issues`: the issues by configuration and rule, in the order in which they are listed.
-/

namespace Tariff

open Text

/-- Something worth mending in a snapshot. -/
inductive Issue where
  | unnamedConfig
  /-- A configuration is enabled, but for no model. -/
  | noModels (config : String)
  | noRules (config : String)
  | unnamedRule (config rule : String)
  | duplicateRule (config rule : String)
  /-- The bounds of a rule admit no request. -/
  | bounds (config rule : String) (error : EditError)
  /-- A rule keeps a number that is negative or none. -/
  | value (config rule : String)
  deriving DecidableEq, Repr

def Issue.message : Issue → String
  | unnamedConfig => "Config with an empty name"
  | noModels config => "Config '" ++ config ++ "': enabled but lists no models"
  | noRules config => "Config '" ++ config ++ "': has no rules"
  | unnamedRule config rule => "Config '" ++ config ++ "': rule " ++ rule ++ " has no name"
  | duplicateRule config rule => "Config '" ++ config ++ "': duplicate rule name '" ++ rule ++ "'"
  | bounds config rule error => "Config '" ++ config ++ "': rule " ++ rule ++ ": " ++ error.message
  | value config rule =>
    "Config '" ++ config ++ "': rule " ++ rule ++ " has a negative or non-finite price"

/-- What a rule is called in issues: its name, or its number where it has none. -/
def ruleLabel (number : Nat) (rule : Rule) : String :=
  if rule.name = "" then "#" ++ natText number else rule.name

/-- The issues of a rule; `earlier` are the rules in front of it. -/
def ruleIssues (config : String) (earlier : List Rule) (rule : Rule) : List Issue :=
  let label := ruleLabel (earlier.length + 1) rule
  let name :=
    if isBlankText rule.name then [.unnamedRule config label]
    else if earlier.any (·.name == rule.name) then [.duplicateRule config rule.name]
    else []
  let bounds := rule.bounds.error?.toList.map (.bounds config label)
  let values := if rule.pricing.values.all isAmount then [] else [.value config label]
  name ++ bounds ++ values

/-- The issues of the rules that follow on `earlier`. -/
def rulesIssues (config : String) (earlier : List Rule) : List Rule → List Issue
  | [] => []
  | rule :: rest => ruleIssues config earlier rule ++ rulesIssues config (earlier ++ [rule]) rest

/-- The issues of a configuration. -/
def configIssues (name : String) (config : TierConfig) : List Issue :=
  (if isBlankText name then [.unnamedConfig] else []) ++
    (if config.enabled && config.models.items.isEmpty then [.noModels name] else []) ++
    (if config.rules.isEmpty then [.noRules name] else []) ++
    rulesIssues name [] config.rules

/-- The issues of a snapshot. -/
def Snapshot.issues (snapshot : Snapshot) : List Issue :=
  snapshot.configs.entries.flatMap fun (name, config) => configIssues name config

end Tariff
