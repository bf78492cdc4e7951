import Tariff.Number.Layout
import Tariff.Remote.Endpoint
import Tariff.Setup.Basic
import Tariff.Text.Blank

/-!
# Issues of setups

What is worth mending in a setup. It is used all the same.

* `Setup.issues`: the issues, in the order in which they are listed.
-/

namespace Tariff

open Text

/-- Something worth mending in a setup. -/
inductive SetupIssue where
  | format (name : String)
  | color (name : String)
  | noQuota
  /-- The multiplier of a group is negative or none. -/
  | groupRatio (group : String) (ratio : Float)
  | unnamedModel
  | duplicateModel (model : String)
  /-- A model has a number that is negative or none. -/
  | modelValue (model : String)
  /-- A model is for a group without a multiplier. -/
  | unknownGroup (model group : String)
  | endpoint (fault : EndpointFault)

def SetupIssue.message : SetupIssue → String
  | format name => "Invalid default_format: '" ++ name ++ "' (must be 'text' or 'json')"
  | color name => "Invalid color: '" ++ name ++ "' (must be 'auto', 'always', or 'never')"
  | noQuota =>
    "quota_per_unit must be positive (0 falls back to " ++ natText defaultQuotaPerUnit.toNat ++ ")"
  | groupRatio group ratio =>
    "Group '" ++ group ++ "': invalid ratio " ++ Number.plainLayout.text ratio
  | unnamedModel => "Model with an empty model_name"
  | duplicateModel model => "Duplicate model: '" ++ model ++ "'"
  | modelValue model => "Model '" ++ model ++ "': ratios and prices must be non-negative"
  | unknownGroup model group =>
    "Model '" ++ model ++ "': group '" ++ group ++ "' has no ratio (billed at 1.0)"
  | endpoint fault => "Remote base_url: " ++ fault.message

/-- The names of formats. -/
def formatNames : List String := ["text", "json"]

/-- The names of what decides about color. -/
def colorNames : List String := ["auto", "always", "never"]

/-- The group that stands for any group. -/
def autoGroup : String := "auto"

/-- The issues of preferences. -/
def Preferences.issues (preferences : Preferences) : List SetupIssue :=
  (if formatNames.contains preferences.format then [] else [.format preferences.format]) ++
    (if colorNames.contains preferences.color then [] else [.color preferences.color]) ++
    (if preferences.quotaPerUnit = 0 then [.noQuota] else [])

/-- The issues of the multipliers of groups. -/
def groupIssues (groups : GroupTable) : List SetupIssue :=
  (groups.entries.filter fun e => !isAmount e.2).map fun e => .groupRatio e.1 e.2

/-- The issues of a record; `earlier` are the records in front of it. -/
def recordIssues (groups : GroupTable) (earlier : List ModelRecord) (record : ModelRecord) :
    List SetupIssue :=
  if isBlankText record.name then [.unnamedModel]
  else
    (if earlier.any (·.name == record.name) then [.duplicateModel record.name] else []) ++
      (if [record.ratio, record.completion, record.price].all isAmount then []
        else [.modelValue record.name]) ++
      (record.groups.filter fun group => !groups.contains group && group != autoGroup).map
        (.unknownGroup record.name)

/-- The issues of the records that follow on `earlier`. -/
def recordsIssues (groups : GroupTable) (earlier : List ModelRecord) :
    List ModelRecord → List SetupIssue
  | [] => []
  | record :: rest =>
    recordIssues groups earlier record ++ recordsIssues groups (earlier ++ [record]) rest

/-- The issues of a setup. -/
def Setup.issues (setup : Setup) : List SetupIssue :=
  setup.preferences.issues ++ groupIssues setup.groups ++
    recordsIssues setup.groups [] setup.models ++
    (setup.remote.baseUrl.bind endpointFault?).toList.map .endpoint

end Tariff
