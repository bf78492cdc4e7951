import Tariff.Files.Disk
import Tariff.Setup.Stored
import Tariff.Tier.Stored

/-!
# Loading

* `Setup.load`, `Snapshot.load`: what a file comes to; a file that is missing comes to what a user
  starts from.
* `LoadError`: why a file cannot be used.
-/

namespace Tariff

/-- Why a file cannot be used. -/
inductive LoadError where
  | unreadable (reason : String)
  | unparsable (fault : Fault)
  deriving DecidableEq, Repr

namespace LoadError

/-- The reason by itself. -/
def reason : LoadError → String
  | unreadable reason => reason
  | unparsable fault => fault.message?.getD "the text is not well formed"

/-- The message about the file of a setup. -/
def setupMessage (error : LoadError) : String :=
  match error with
  | unreadable _ => "Failed to read config: " ++ error.reason
  | unparsable _ => "Failed to parse config: " ++ error.reason

/-- The message about a file with tiered pricing. -/
def snapshotMessage (error : LoadError) : String :=
  match error with
  | unreadable _ => "Failed to access pricing snapshot: " ++ error.reason
  | unparsable _ => "Failed to parse pricing snapshot: " ++ error.reason

end LoadError

/-- The setup that a file comes to. -/
def Setup.load : Contents → Except LoadError Setup
  | .missing => .ok .initial
  | .unreadable reason => .error (.unreadable reason)
  | .text s => (Setup.ofText s).mapError .unparsable

/-- The tiered pricing that a file comes to. -/
def Snapshot.load : Contents → Except LoadError Snapshot
  | .missing => .ok .empty
  | .unreadable reason => .error (.unreadable reason)
  | .text s => (Snapshot.ofText s).mapError .unparsable

end Tariff
