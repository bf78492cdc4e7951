import Tariff.Command.Context
import Tariff.Edit.Audit
import Tariff.Setup.Audit

/-!
# Commands about the setup

* `Context.create`: writes the setup that a user starts from, unless there is a file already.
* `Context.print`: the setup as it is used.
* `Inspection`: what is worth mending in both files. A file that cannot be loaded is an issue, too.
-/

namespace Tariff

namespace Context

/-- Why a setup has no text: one of its numbers is too large. -/
def outOfRange : String := "out-of-range value for u64 type"

/-- The failure to write a new setup. -/
def notGenerated (context : Context) (message reason : String) : Outcome :=
  .failed ⟨"Failed to generate config at " ++ context.setupFile, [message, reason]⟩

/-- Writes the setup that a user starts from. -/
def create (context : Context) (setup : Contents) : Plan :=
  if setup.isThere then
    .outcome (.remarked
      ["Config file already exists at " ++ context.setupFile,
        "Remove it first if you want to regenerate."])
  else
    match Setup.initial.text? with
    | some text =>
      .write context.setupFile text
        (.answered
          ["Generated config at " ++ context.setupFile,
            "  Tier pricing snapshot: " ++ context.pricingFile])
        fun reason => context.notGenerated (LoadError.unreadable reason).setupMessage reason
    | none =>
      .outcome (context.notGenerated ("Failed to serialize config: " ++ outOfRange) outOfRange)

/-- The setup as it is used. -/
def print (context : Context) : Outcome :=
  if context.options.json then .ofJson context.options context.setup.json
  else
    match context.setup.text? with
    | some text =>
      { Outcome.silent with stdout := "# " ++ context.setupFile ++ "\n" ++ text }
    | none => .failed ⟨"Failed to serialize config", [outOfRange]⟩

end Context

/-- What is worth mending in the setup and in tiered pricing. -/
structure Inspection where
  setupFile : String
  pricingFile : String
  setupIssues : List String
  pricingIssues : List String
  deriving DecidableEq, Repr

namespace Inspection

/-- The issues of a setup that may not have been loaded. -/
def issuesOfSetup : Except LoadError Setup → List String
  | .ok setup => setup.issues.map (·.message)
  | .error error => ["Failed to load config: " ++ error.setupMessage]

/-- The issues of tiered pricing that may not have been loaded. -/
def issuesOfSnapshot : Except LoadError Snapshot → List String
  | .ok snapshot => snapshot.issues.map (·.message)
  | .error error => ["Failed to load tier pricing: " ++ error.snapshotMessage]

/-- Whether there is nothing to mend. -/
def isClean (inspection : Inspection) : Bool :=
  inspection.setupIssues.isEmpty && inspection.pricingIssues.isEmpty

def json (inspection : Inspection) : Json :=
  .object
    [("config_path", .string inspection.setupFile),
      ("pricing_path", .string inspection.pricingFile),
      ("config_issues", .array (inspection.setupIssues.map .string)),
      ("pricing_issues", .array (inspection.pricingIssues.map .string))]

/-- The report about one file. -/
def fileReport (label path : String) (issues : List String) : Outcome :=
  if issues.isEmpty then .answered [label ++ " is valid: " ++ path]
  else .remarked ((label ++ " issues found in " ++ path ++ ":") :: issues.map ("  - " ++ ·))

/-- The report; it fails where there is something to mend. -/
def report (inspection : Inspection) (options : OutputOptions) : Outcome :=
  let body :=
    if options.json then Outcome.ofJson options inspection.json
    else
      fileReport "Config" inspection.setupFile inspection.setupIssues ++
        fileReport "Tier pricing" inspection.pricingFile inspection.pricingIssues
  { body with exit := if inspection.isClean then 0 else 1 }

/-- The remark about a file that is missing. -/
def missingRemark (setupFile : String) (setup : Contents) : Outcome :=
  if setup.isThere then .silent
  else .remarked
    ["No config file found at " ++ setupFile, "Run \x60tierprice config init\x60 to create one."]

end Inspection

end Tariff
