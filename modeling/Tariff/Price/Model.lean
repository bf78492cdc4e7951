import Tariff.Table
import Tariff.Text.Digits

/-!
# Models and groups

The price of a model where no tier applies, and the multipliers of user groups.

* `Billing`: by token or by call, stored as a code.
* `ModelRecord`: the flat price of a model.
* `groupRatio`: the multiplier of a group; one for a group that the table does not know.
-/

namespace Tariff

/-- What a model without tiers is charged by. -/
inductive Billing where
  /-- By token. -/
  | metered
  /-- By call. -/
  | perCall
  deriving DecidableEq, Repr

namespace Billing

/-- The code that a way of billing is stored as. -/
def code : Billing → Nat
  | metered => 0
  | perCall => 1

/-- The way of billing behind a code. -/
def ofCode? : Nat → Option Billing
  | 0 => some metered
  | 1 => some perCall
  | _ => none

/-- The message for a code without meaning. -/
def unknownMessage (code : Nat) : String :=
  "unknown quota_type " ++ Text.natText code ++ " (expected 0 or 1)"

end Billing

/-- The flat price of a model. -/
structure ModelRecord where
  name : String
  billing : Billing
  /-- The input multiplier on the base price, for metered models. -/
  ratio : Float
  /-- The output price over the input price, for metered models. -/
  completion : Float
  /-- Dollars per call, for models charged by call. -/
  price : Float
  /-- The groups that the model is for; none means all. -/
  groups : List String
  deriving DecidableEq

/-- The multipliers of user groups. -/
abbrev GroupTable := Table Float

/-- The multiplier of a group. -/
def groupRatio (groups : GroupTable) (group : String) : Float :=
  (groups.get? group).getD 1.0

end Tariff
