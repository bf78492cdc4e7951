import Tariff.Command.Context
import Tariff.Command.Line
import Tariff.Number.Layout
import Tariff.Report.Answers
import Tariff.Report.Tiers

/-!
# Commands about prices

* `Context.price`, `Context.groups`, `Context.cost`, `Context.tiers`: prices of a model.
* `Context.convert`: ratios and dollars.
-/

namespace Tariff

/-- A question without an answer as a failure. -/
def QueryError.failure (error : QueryError) : Failure :=
  match error with
  | overflow _ cause => ⟨error.message, [cause.message]⟩
  | _ => .plain error.message

namespace Context

/-- The price of a model for one group. -/
def price (context : Context) (pricing : Contents) (query : Query) : Except Failure Outcome := do
  let snapshot ← context.snapshot pricing
  let answer ←
    (query.price? context.setup context.setupFile snapshot).mapError QueryError.failure
  return .ofPage context.options answer.page answer.json

/-- The price of a model for each group. -/
def groups (context : Context) (pricing : Contents) (query : Query) : Except Failure Outcome := do
  let snapshot ← context.snapshot pricing
  let answer ←
    (query.groups? context.setup context.setupFile snapshot).mapError QueryError.failure
  return .ofPage context.options answer.page answer.json

/-- What a request costs. -/
def cost (context : Context) (pricing : Contents) (query : Query) : Except Failure Outcome := do
  let snapshot ← context.snapshot pricing
  let answer ← (query.cost? context.setup snapshot).mapError QueryError.failure
  return .ofPage context.options answer.page answer.json

/-- The rules that apply to a model, as JSON. -/
def tiersJson (model : String) (selected : Option NamedConfig) : Json :=
  .object
    [("model", .string model), ("config_name", selected.elim .null fun c => .string c.1),
      ("config", selected.elim .null fun c => c.2.json)]

/-- Why no rules apply to a model. -/
def noTiers (snapshot : Snapshot) (model : String) : String :=
  if snapshot.enabled then "No enabled tier config lists '" ++ model ++ "'."
  else "Tiered pricing is globally disabled."

/-- The rules that apply to a model. -/
def tiers (context : Context) (pricing : Contents) (model : String) (unit : Option TokenUnit) :
    Except Failure Outcome := do
  let snapshot ← context.snapshot pricing
  let selected := snapshot.selected? model
  if context.options.json then return .ofJson context.options (tiersJson model selected)
  else
    match selected with
    | some (name, config) =>
      let unit := unit.getD context.setup.preferences.unit
      return .answered [(Report.rulesPage name config unit).text context.options.color]
    | none => return .remarked [noTiers snapshot model]

/-- The failure of a conversion that starts from a number that is no amount. -/
def amountFailure (label : String) (x : Float) : Failure :=
  .plain (label ++ " must be a non-negative number, got " ++ Number.plainLayout.text x)

/-- Lets amounts pass. -/
def checkAmount (label : String) (x : Float) : Except Failure Unit :=
  if isAmount x then .ok () else .error (amountFailure label x)

/-- The conversion that is asked for. -/
def conversion (basis : Basis) : ConversionCommand → Except Failure Conversion
  | .ofRatio ratio completion => do
    checkAmount "ratio" ratio
    checkAmount "completion ratio" completion
    return .ofRatio basis ratio completion
  | .ofPrice input output => do
    checkAmount "input price" input
    output.forM (checkAmount "output price")
    return .ofPrice basis input output

/-- A conversion on one line, with what there is to remark about it. -/
def conversionText (options : OutputOptions) (c : Conversion) : Outcome :=
  let note := c.note?.toList.map ("note: " ++ ·)
  let basis :=
    if options.verbose then ["quota_per_unit = " ++ Text.natText c.basis.quotaPerUnit.toNat] else []
  .answered [c.text] ++ .remarked (note ++ basis)

/-- Ratios and dollars. -/
def convert (context : Context) (command : ConversionCommand) : Except Failure Outcome :=
  (conversion context.setup.basis command).map fun c =>
    if context.options.json then .ofJson context.options c.json
    else conversionText context.options c

end Context

end Tariff
