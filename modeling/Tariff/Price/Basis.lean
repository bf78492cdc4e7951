/-!
# Ratios and dollars

A ratio is a multiplier on a base price, which hangs on how many quota units a dollar buys.

* `Basis.ofQuotaPerUnit`: the basis for a count of units, where zero selects the default.
* `Basis.priceOfRatio`, `Basis.ratioOfPrice`: between ratios and dollars per million tokens.
* `isAmount`: whether a number can be a price or a ratio.
* `completionOfPrices`: the completion ratio that leads from one price to another.
* `quotient`: division that answers zero where there is no finite answer.
-/

namespace Tariff

/-- The quota units that a dollar buys unless another count is configured. -/
def defaultQuotaPerUnit : UInt64 := 500000

/-- Whether a number can be a price or a multiplier. -/
def isAmount (x : Float) : Bool :=
  x.isFinite && !(x < 0.0)

/-- A quotient, or zero where the divisor is zero or not finite or the quotient is not finite. -/
def quotient (numerator denominator : Float) : Float :=
  if denominator == 0.0 || !denominator.isFinite then 0.0
  else
    let value := numerator / denominator
    if value.isFinite then value else 0.0

/-- The quota units that a dollar buys. -/
structure Basis where
  quotaPerUnit : UInt64
  deriving DecidableEq, Repr

namespace Basis

/-- The basis for a configured count, where zero selects the default. -/
def ofQuotaPerUnit (count : UInt64) : Basis :=
  ⟨if count = 0 then defaultQuotaPerUnit else count⟩

/-- Dollars per million tokens at ratio one. -/
def basePrice (basis : Basis) : Float :=
  1000000.0 / basis.quotaPerUnit.toFloat

/-- Dollars per million tokens at a ratio. -/
def priceOfRatio (basis : Basis) (ratio : Float) : Float :=
  ratio * basis.basePrice

/-- The ratio that gives a price in dollars per million tokens. -/
def ratioOfPrice (basis : Basis) (price : Float) : Float :=
  quotient price basis.basePrice

end Basis

/-- The completion ratio that leads from an input price to an output price. -/
def completionOfPrices (input output : Float) : Float :=
  quotient output input

end Tariff
