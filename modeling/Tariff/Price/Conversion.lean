import Tariff.Price.Basis

/-!
# Conversions

Between ratios and dollars per million tokens, in either direction.

* `Conversion.ofRatio`, `Conversion.ofPrice`: both sides of a conversion.
* No completion ratio leads from or to a price of zero. Where one of two prices is zero, the output
  costs what the input costs, and the conversion keeps the price that was asked for.
-/

namespace Tariff

/-- Ratios with the prices that they come to. -/
structure Conversion where
  basis : Basis
  inputRatio : Float
  completionRatio : Float
  inputPrice : Float
  outputPrice : Float
  /-- The output price that was asked for, if the ratios come to another one. -/
  missed : Option Float
  deriving DecidableEq

namespace Conversion

/-- The prices of an input ratio and a completion ratio. -/
def ofRatio (basis : Basis) (ratio completion : Float) : Conversion :=
  let input := basis.priceOfRatio ratio
  ⟨basis, ratio, completion, input, input * completion, none⟩

/-- The ratios of an input price and an output price, which is the input price if it is not given.
-/
def ofPrice (basis : Basis) (input : Float) (output : Option Float) : Conversion :=
  let requested := output.getD input
  let derivable := input > 0.0 && requested > 0.0
  let completion := if derivable then completionOfPrices input requested else 1.0
  let billed := if derivable then requested else input
  ⟨basis, basis.ratioOfPrice input, completion, input, billed,
    if billed != requested then some requested else none⟩

end Conversion

end Tariff
