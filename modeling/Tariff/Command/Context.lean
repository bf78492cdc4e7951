import Tariff.Command.Outcome
import Tariff.Files.Stored

/-!
# What commands work on

* `Context`: the setup, the files that a command uses, and how its answer looks.
* `Context.snapshot`: the tiered pricing that a file holds.
-/

namespace Tariff

/-- What commands work on. -/
structure Context where
  setup : Setup
  /-- The path of the file of the setup. -/
  setupFile : String
  /-- The path of the file with tiered pricing. -/
  pricingFile : String
  options : OutputOptions

namespace LoadError

/-- The failure to load the setup. -/
def setupFailure (path : String) (error : LoadError) : Failure :=
  ⟨"Failed to load config from " ++ path, [error.setupMessage, error.reason]⟩

/-- The failure to load tiered pricing. -/
def snapshotFailure (path : String) (error : LoadError) : Failure :=
  ⟨"Failed to load tier pricing from " ++ path, [error.snapshotMessage, error.reason]⟩

end LoadError

namespace Context

/-- The tiered pricing that the contents of the file hold. -/
def snapshot (context : Context) (pricing : Contents) : Except Failure Snapshot :=
  (Snapshot.load pricing).mapError (·.snapshotFailure context.pricingFile)

/-- The failure to save tiered pricing. -/
def unsaved (context : Context) (reason : String) : Outcome :=
  .failed ⟨"Failed to save tier pricing to " ++ context.pricingFile,
    [(LoadError.unreadable reason).snapshotMessage, reason]⟩

end Context

end Tariff
