import Tariff.Price.Model
import Tariff.Tier.Pattern

/-!
# Faults of documents

Why a document cannot be read as what it should be. The faults that have a message name what the
domain refuses; all others are faults of form.
-/

namespace Tariff

/-- Why a document cannot be read. -/
inductive Fault where
  /-- The text is not of its format, or a value is missing, repeated or of the wrong kind. -/
  | malformed
  /-- A pattern is refused. -/
  | pattern (cause : MisplacedWildcard)
  /-- A code for the way of billing has no meaning. -/
  | billing (code : Nat)
  deriving DecidableEq, Repr

/-- The message of a fault of the domain. -/
def Fault.message? : Fault → Option String
  | malformed => none
  | pattern cause => some cause.message
  | billing code => some (Billing.unknownMessage code)

end Tariff
