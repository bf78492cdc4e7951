import Tariff.Price.Basis
import Tariff.Report.Amount
import Tariff.Report.Columns
import Tariff.Tier.Snapshot

/-!
# Pages of tiers

* `listPage`: all configurations in the order in which they are tried.
* `rulesPage`: the rules of a configuration as they price.
* `editorPage`: the rules of a configuration as they are edited, with the values that they come to
  in the other way of pricing.
-/

namespace Tariff.Report

open Text

/-- A configuration as a row of the list. -/
def configCells (name : String) (config : TierConfig) : List String :=
  [name, intText config.priority.toInt, if config.enabled then "yes" else "no",
    natText config.rules.length, config.models.text]

/-- All configurations, larger priorities first. -/
def listPage (snapshot : Snapshot) : Page :=
  let switch := if snapshot.enabled then Style.green.on "on" else Style.red.on "off"
  [plain " ", Style.bold.on "Tiered pricing", plain " ", switch] ::
    if snapshot.configs.entries.isEmpty then [[plain "  ", Style.dimmed.on "No tier configs"]]
    else
      columns ["Config", "Priority", "Enabled", "Rules", "Models"]
        ((Snapshot.byPriority snapshot.configs.entries).map fun e => configCells e.1 e.2)

/-- A rule as a row: its condition, its way of pricing and its two values. -/
def ruleCells (rule : Rule) (unit : TokenUnit) : List String :=
  let (input, output) := valueTexts rule.pricing unit
  [rule.name, conditionText rule.bounds unit, rule.pricing.label, input, output]

/-- The rules of a configuration. -/
def rulesPage (name : String) (config : TierConfig) (unit : TokenUnit) : Page :=
  let state := if config.enabled then Style.green.on "enabled" else Style.red.on "disabled"
  [plain " ", Style.bold.on name, plain (" (priority " ++ intText config.priority.toInt ++ ", "),
      state, plain ")"] ::
    [plain "  ", Style.cyan.on "Models", plain ("    " ++ config.models.text)] ::
    if config.rules.isEmpty then [[plain "  ", Style.dimmed.on "No rules"]]
    else
      columns ["Rule", "Condition", "Mode", "Input", "Output"]
        (config.rules.map fun rule => ruleCells rule unit)

/-- Two values with a slash between them. -/
def slashed (values : String × String) : String :=
  values.1 ++ " / " ++ values.2

/-- What a pricing comes to in the other way of pricing, per million tokens. -/
def equivalentText (pricing : Pricing) (basis : Basis) : String :=
  match pricing with
  | .ratio input _ _ =>
    let output := pricing.outputRatio?.getD 0.0
    slashed (unitPriceText (basis.priceOfRatio input) .million,
      unitPriceText (basis.priceOfRatio output) .million)
  | .absolute input output =>
    ratioText (basis.ratioOfPrice input) ++ " (completion " ++
      ratioText (completionOfPrices input output) ++ ")"

/-- A numbered rule as a row of the editor. -/
def editorCells (number : Nat) (rule : Rule) (basis : Basis) : List String :=
  [natText number ++ ". " ++ rule.name, rangeText rule.bounds.input, rangeText rule.bounds.output,
    slashed (valueTexts rule.pricing .million), equivalentText rule.pricing basis]

/-- The rules of a configuration as they are edited. -/
def editorPage (name : String) (config : TierConfig) (basis : Basis) : Page :=
  [plain " ", Style.bold.on name, plain (" (" ++ natText config.rules.length ++ " rules)")] ::
    columns ["Rule", "Input tokens", "Output tokens", "In / Out", "Equivalent"]
      (config.rules.zipIdx.map fun (rule, index) => editorCells (index + 1) rule basis)

end Tariff.Report
