import Tariff.Tier.Bounds

/-!
# Tier rules

A rule prices the requests in its window, either by multipliers on a base price or by dollars per
million tokens.

* `Pricing`: the two ways. `Pricing.outputRatio?` is the multiplier of the output side.
* `defaultRules`: the template of four rules that a new configuration starts from.
-/

namespace Tariff

/-- How a rule prices tokens. -/
inductive Pricing where
  /-- Multipliers on the base price. The output side takes `output` where it is given, and else the
  input multiplier times the completion ratio. -/
  | ratio (input completion : Float) (output : Option Float)
  /-- Dollars per million tokens. -/
  | absolute (input output : Float)
  deriving DecidableEq

namespace Pricing

/-- The multiplier of the output side, for pricing by multipliers. -/
def outputRatio? : Pricing → Option Float
  | ratio input completion output => some (output.getD (input * completion))
  | absolute _ _ => none

/-- Whether pricing is by dollars. -/
def isAbsolute : Pricing → Bool
  | ratio _ _ _ => false
  | absolute _ _ => true

/-- The word for the way of pricing. -/
def label : Pricing → String
  | ratio _ _ _ => "ratio"
  | absolute _ _ => "price"

/-- The numbers that the pricing keeps. -/
def values : Pricing → List Float
  | ratio input completion output => input :: completion :: output.toList
  | absolute input output => [input, output]

end Pricing

/-- One segment of a tiered price. -/
structure Rule where
  name : String
  bounds : TokenBounds
  pricing : Pricing
  deriving DecidableEq

namespace Rule

/-- Whether the rule is for a request of this size. -/
def admits (rule : Rule) (tokens : TokenCounts) : Bool :=
  rule.bounds.admits tokens

end Rule

/-- The rules that a new configuration starts from: short inputs with short and with long outputs,
medium inputs, and long inputs. -/
def defaultRules : List Rule :=
  [⟨"T1_input_le_32k_output_le_200", ⟨⟨0, 32000⟩, ⟨0, 200⟩⟩, .ratio 0.4 1.0 none⟩,
    ⟨"T2_input_le_32k_output_gt_200", ⟨⟨0, 32000⟩, ⟨201, 0⟩⟩, .ratio 0.4 1.5 none⟩,
    ⟨"T3_input_32k_to_128k", ⟨⟨32001, 128000⟩, .unlimited⟩, .ratio 0.6 1.0 none⟩,
    ⟨"T4_input_gt_128k", ⟨⟨128001, 0⟩, .unlimited⟩, .ratio 1.2 1.0 none⟩]

end Tariff
