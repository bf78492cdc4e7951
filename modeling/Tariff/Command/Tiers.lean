import Tariff.Command.Context
import Tariff.Command.Line
import Tariff.Edit.Audit
import Tariff.Report.Tiers

/-!
# Commands about tiered pricing

An edit reads the file with tiered pricing, and writes it anew if the edit succeeds.

* `Edit.report`: what an edit is reported as.
* `Context.tier`: a command as a whole.
-/

namespace Tariff

open Text

namespace Direction

def word : Direction → String
  | up => "up"
  | down => "down"

end Direction

/-- The report of an edit that led to the snapshot `next`. -/
def Edit.report (next : Snapshot) : Edit → String
  | setEnabled enabled => "Tiered pricing globally " ++ if enabled then "enabled" else "disabled"
  | addConfig name _ _ =>
    let priority := ((next.configs.get? (trimmed name)).map (·.priority)).getD 0
    "Added config: " ++ trimmed name ++ " (priority " ++ intText priority.toInt ++ ")"
  | copyConfig name => "Copied config " ++ name ++ " to " ++ Snapshot.copyName name
  | removeConfig name => "Removed config: " ++ name
  | setConfigEnabled name enabled =>
    (if enabled then "Enabled" else "Disabled") ++ " config: " ++ name
  | setPriority name priority => "Set priority of " ++ name ++ " to " ++ intText priority.toInt
  | setModels name _ =>
    let models := ((next.configs.get? name).map (·.models.text)).getD ""
    "Models of " ++ name ++ ": " ++ models
  | putRule config _ draft => "Added rule " ++ trimmed draft.name ++ " to " ++ config
  | replaceRule config rule _ => "Updated rule " ++ rule ++ " in " ++ config
  | removeRule config rule => "Removed rule " ++ rule ++ " from " ++ config
  | moveRule config rule direction =>
    "Moved rule " ++ rule ++ " " ++ direction.word ++ " in " ++ config
  | resetRules config => "Reset " ++ config ++ " to the default rules"

namespace Context

/-- A refused edit as a failure. -/
def editFailure (error : EditError) : Failure :=
  .plain error.message

/-- Saves what an edit came to, and reports it with what is worth mending in it. -/
def commit (context : Context) (edit : Edit) (next : Snapshot) : Plan :=
  let answer :=
    if context.options.json then Outcome.ofJson context.options next.json
    else .answered [edit.report next]
  .write context.pricingFile next.toText
    { answer with warnings := next.issues.map (·.message) } context.unsaved

/-- Makes a change. -/
def change (context : Context) (snapshot : Snapshot) (change : Change) : Except EditError Plan := do
  let edit ← change.toEdit snapshot
  let next ← edit.apply context.setup.basis snapshot
  return context.commit edit next

/-- All configurations. -/
def list (context : Context) (snapshot : Snapshot) : Outcome :=
  .ofPage context.options (Report.listPage snapshot) snapshot.json

/-- One configuration. -/
def detail (context : Context) (snapshot : Snapshot) (name : String) : Except EditError Outcome :=
  (snapshot.config name).map fun config =>
    .ofPage context.options (Report.editorPage name config context.setup.basis) config.json

/-- A command about tiered pricing. -/
def tier (context : Context) (pricing : Contents) (command : TierCommand) :
    Except Failure Plan := do
  let snapshot ← context.snapshot pricing
  match command with
  | .list => return .outcome (context.list snapshot)
  | .detail name => return .outcome (← (context.detail snapshot name).mapError editFailure)
  | .change change => (context.change snapshot change).mapError editFailure

end Context

end Tariff
