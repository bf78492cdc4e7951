import Tariff.Command.Exchange
import Tariff.Command.Prices
import Tariff.Command.Setup
import Tariff.Command.Tiers

/-!
# Running commands

A run reads at most two files, the setup and the tiered pricing that goes with it, and writes at
most one.

* `Invocation.plan`: what an invocation comes to. `look` says what is found where a path leads, and
  `service` what comes back from the settings service.
* `plan`: the same for a command line.
* `Disk.run`: a run that reads and writes the files of a disk.
-/

namespace Tariff

namespace Invocation

/-- The path of the file of the setup. -/
def setupPath (invocation : Invocation) (env : Environment) : String :=
  invocation.setupFile.getD (Tariff.setupPath env)

/-- The path of the file with tiered pricing. -/
def pricingPath (invocation : Invocation) (env : Environment) (setup : Setup) : String :=
  invocation.pricingFile.getD
    (Tariff.pricingPath env (invocation.setupPath env) setup.pricingFile)

/-- The path of the file with tiered pricing, where the setup may not be one that can be loaded. -/
def pricingPathFor (invocation : Invocation) (env : Environment) (setup : Contents) : String :=
  invocation.pricingPath env ((Setup.load setup).toOption.getD .initial)

/-- What is worth mending in both files. -/
def inspection (invocation : Invocation) (env : Environment) (look : String → Contents) :
    Inspection :=
  let setupFile := invocation.setupPath env
  let setup := look setupFile
  let pricingFile := invocation.pricingPathFor env setup
  ⟨setupFile, pricingFile, Inspection.issuesOfSetup (Setup.load setup),
    Inspection.issuesOfSnapshot (Snapshot.load (look pricingFile))⟩

/-- The inspection of both files, which needs no setup that can be loaded. -/
def check (invocation : Invocation) (env : Environment) (look : String → Contents)
    (options : OutputOptions) : Outcome :=
  let setupFile := invocation.setupPath env
  Inspection.missingRemark setupFile (look setupFile) ++
    (invocation.inspection env look).report options

/-- What a command comes to in a context. -/
def planIn (invocation : Invocation) (env : Environment) (look : String → Contents)
    (service : Service) (context : Context) : Except Failure Plan :=
  let pricing := look context.pricingFile
  match invocation.command with
  | .price query => (context.price pricing query).map .outcome
  | .tiers model unit => (context.tiers pricing model unit).map .outcome
  | .groups query => (context.groups pricing query).map .outcome
  | .cost query => (context.cost pricing query).map .outcome
  | .convert conversion => (context.convert conversion).map .outcome
  | .setup .init => .ok (context.create (look context.setupFile))
  | .setup .check => .ok (.outcome (invocation.check env look context.options))
  | .setup .print => .ok (.outcome context.print)
  | .tier command => context.tier pricing command
  | .pull => context.pull env service
  | .push => (context.push env service pricing).map .outcome

/-- Whether the command is for a setup that cannot be loaded, too. -/
def toleratesBadSetup (invocation : Invocation) : Bool :=
  match invocation.command with
  | .setup .check => true
  | _ => false

/-- What an invocation comes to. `auto` says whether color suits the place that answers go to. -/
def plan (invocation : Invocation) (auto : Bool) (env : Environment) (look : String → Contents)
    (service : Service) : Plan :=
  let setupFile := invocation.setupPath env
  match Setup.load (look setupFile) with
  | .ok setup =>
    Plan.ofExcept (invocation.planIn env look service
      ⟨setup, setupFile, invocation.pricingPath env setup,
        invocation.flags.resolve auto setup.preferences⟩)
  | .error error =>
    if invocation.toleratesBadSetup then
      .outcome (invocation.check env look (invocation.flags.resolve auto .initial))
    else .outcome (.failed (error.setupFailure setupFile))

end Invocation

/-- The name of the program and its version. -/
def versionText : String := "tierprice 0.1.0"

/-- How the program is used. -/
def usageText : String := "Usage: tierprice [OPTIONS] <COMMAND>"

/-- The outcome of arguments that are no invocation. -/
def Command.Stop.outcome : Command.Stop → Outcome
  | misuse => { Outcome.remarked [usageText] with exit := 2 }
  | help => .answered [usageText]
  | version => .answered [versionText]

/-- What a command line comes to. -/
def plan (arguments : List String) (auto : Bool) (env : Environment) (look : String → Contents)
    (service : Service) : Plan :=
  match Invocation.read arguments with
  | .ok invocation => invocation.plan auto env look service
  | .error stop => .outcome stop.outcome

/-- Does what is planned. -/
def Disk.execute (disk : Disk) : Plan → Outcome × Disk
  | .outcome outcome => (outcome, disk)
  | .write path text written unwritten =>
    match disk.save? path text with
    | some disk => (written, disk)
    | none => (unwritten "the file cannot be written", disk)

/-- A run of the program on a disk, with answers that go to no terminal. -/
def Disk.run (disk : Disk) (env : Environment) (arguments : List String)
    (service : Service := .silent) : Outcome × Disk :=
  disk.execute (plan arguments false env disk.contents service)

end Tariff
