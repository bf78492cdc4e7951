import Tariff.Number.Fixed
import Tariff.Price.Unit
import Tariff.Text.Pieces
import Tariff.Tier.Rule

/-!
# Amounts in words

How prices, ratios and token counts are shown.

* `priceText`: dollars with four places. `ratioText`: a multiplier with two places.
  `unitPriceText`: dollars with six places, and the unit they are for.
* `tokensText`: a count in display units, or as it is where it is less than one unit.
* `rangeText`: a range with its counts in full. `conditionText`: the request sizes that a window
  admits, as a condition. `valueTexts`: the two values of a rule.
-/

namespace Tariff.Report

open Text Number

/-- Dollars with four decimal places. -/
def priceText (usd : Float) : String :=
  "$" ++ fixed 4 usd

/-- A multiplier with two decimal places. -/
def ratioText (ratio : Float) : String :=
  fixed 2 ratio ++ "x"

/-- Dollars with six decimal places and the unit that they are for. -/
def unitPriceText (usd : Float) (unit : TokenUnit) : String :=
  "$" ++ fixed 6 usd ++ " / " ++ unit.label

/-- A count of tokens in display units; a count below one unit stays as it is. -/
def tokensText (count : UInt64) (unit : TokenUnit) : String :=
  if count < unit.tokens then natText count.toNat
  else
    let units := count.toFloat / unit.tokens.toFloat
    match unit with
    | .thousand => fixed 0 units ++ "K"
    | .million => fixed 3 units ++ "M"

/-- A count in groups of three digits. -/
def groupedText (count : UInt64) : String :=
  grouped count.toNat

/-- A range with its counts in full. -/
def rangeText (range : TokenRange) : String :=
  if range.min = 0 then
    if range.max = 0 then "unlimited" else "<= " ++ groupedText range.max
  else
    if range.max = 0 then ">= " ++ groupedText range.min
    else groupedText range.min ++ " - " ++ groupedText range.max

/-- The counts that a range admits, as a condition on the side called `side`. -/
def sideCondition (side : String) (range : TokenRange) (unit : TokenUnit) : Option String :=
  if 0 < range.max then
    let limit := side ++ " <= " ++ tokensText range.max unit
    some (if 0 < range.min then tokensText range.min unit ++ " <= " ++ limit else limit)
  else if 0 < range.min then some (side ++ " >= " ++ tokensText range.min unit)
  else none

/-- The requests that a window admits, as a condition. -/
def conditionText (bounds : TokenBounds) (unit : TokenUnit) : String :=
  let input := sideCondition "input" bounds.input unit
  let output := sideCondition "output" bounds.output unit
  match [input, output].filterMap id with
  | [] => "default"
  | conditions => joined " & " conditions

/-- The input and the output value of a rule: multipliers, or prices for a display unit. -/
def valueTexts (pricing : Pricing) (unit : TokenUnit) : String × String :=
  match pricing with
  | .absolute input output => (unitPriceText input unit, unitPriceText output unit)
  | .ratio input _ _ => (ratioText input, ratioText (pricing.outputRatio?.getD 0.0))

end Tariff.Report
