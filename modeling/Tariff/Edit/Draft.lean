import Tariff.Price.Basis
import Tariff.Text.Blank
import Tariff.Text.Digits
import Tariff.Tier.Pattern
import Tariff.Tier.Rule

/-!
# Drafts of rules

A rule as it is entered. Prices may be entered to be kept as the ratios that come to them.

* `EditError`: why a draft, or an edit of a snapshot, is refused.
* `completionKept`: the completion ratio of two prices that are to be kept as ratios.
* `RuleDraft.rule`: the rule of a draft. A draft needs a name, and bounds that admit something.
* `Rule.draft`: the draft that a rule could have been entered as.
-/

namespace Tariff

open Text

/-- A side of a request. -/
inductive Side where
  | input
  | output
  deriving DecidableEq, Repr

def Side.word : Side → String
  | input => "input"
  | output => "output"

/-- Why an edit is refused. -/
inductive EditError where
  | emptyConfigName
  | duplicateConfig (name : String)
  | unknownConfig (name : String)
  | emptyRuleName
  | duplicateRule (config rule : String)
  | unknownRule (config rule : String)
  | invertedBounds (side : Side) (range : TokenRange)
  | pattern (cause : MisplacedWildcard)
  deriving DecidableEq, Repr

def EditError.message : EditError → String
  | emptyConfigName => "Config name must not be empty"
  | duplicateConfig name => "Config '" ++ name ++ "' already exists"
  | unknownConfig name => "Config '" ++ name ++ "' not found"
  | emptyRuleName => "Rule name must not be empty"
  | duplicateRule config rule => "Rule '" ++ rule ++ "' already exists in config '" ++ config ++ "'"
  | unknownRule config rule => "Rule '" ++ rule ++ "' not found in config '" ++ config ++ "'"
  | invertedBounds side range =>
    "Minimum " ++ side.word ++ " tokens (" ++ natText range.min.toNat ++
      ") cannot exceed maximum (" ++ natText range.max.toNat ++ ")"
  | pattern cause => cause.message

/-- What is wrong with a window, the input side first. -/
def TokenBounds.error? (bounds : TokenBounds) : Option EditError :=
  if bounds.input.inverted then some (.invertedBounds .input bounds.input)
  else if bounds.output.inverted then some (.invertedBounds .output bounds.output)
  else none

/-- Pricing as it is entered. -/
inductive DraftPricing where
  /-- Multipliers; an output multiplier stands in for the product of the other two. -/
  | ratio (input completion : Float) (output : Option Float)
  /-- Dollars per million tokens, to be kept as they are or as ratios. -/
  | price (input output : Float) (asRatio : Bool)
  deriving DecidableEq

/-- The completion ratio that prices are kept as: one, unless both are above zero. -/
def completionKept (input output : Float) : Float :=
  if input > 0.0 && output > 0.0 then completionOfPrices input output else 1.0

/-- The pricing of a draft. Two prices of zero are kept as a ratio of zero, since a stored rule is
priced in dollars only if one of its prices is not zero. -/
def DraftPricing.pricing (basis : Basis) : DraftPricing → Pricing
  | ratio input completion output => .ratio input completion output
  | price input output true =>
    .ratio (if input > 0.0 then basis.ratioOfPrice input else 0.0)
      (completionKept input output) none
  | price input output false =>
    if input == 0.0 && output == 0.0 then .ratio 0.0 1.0 none else .absolute input output

/-- A rule as it is entered. -/
structure RuleDraft where
  name : String
  bounds : TokenBounds
  pricing : DraftPricing
  deriving DecidableEq

/-- The rule of a draft, under the trimmed name. -/
def RuleDraft.rule (draft : RuleDraft) (basis : Basis) : Except EditError Rule :=
  if isBlankText draft.name then .error .emptyRuleName
  else
    match draft.bounds.error? with
    | some error => .error error
    | none => .ok ⟨trimmed draft.name, draft.bounds, draft.pricing.pricing basis⟩

/-- Pricing as it could have been entered. -/
def Pricing.draft : Pricing → DraftPricing
  | ratio input completion output => .ratio input completion output
  | absolute input output => .price input output false

/-- The draft that a rule could have been entered as. -/
def Rule.draft (rule : Rule) : RuleDraft :=
  ⟨rule.name, rule.bounds, rule.pricing.draft⟩

end Tariff
