import Tariff.Edit.Operation

/-!
# Fields of rules

What a user may say about a rule. A field that is not given keeps what the draft has.

* `RuleFields.apply`: a draft with the given fields.
* `RuleDraft.blank`: the draft of a new rule.
* `RuleFields.edit`: the edit that changes fields of a rule.
* `Change`: an edit, or fields of a rule that are to be changed.
-/

namespace Tariff

/-- The fields of a rule, each given or not. -/
structure RuleFields where
  name : Option String
  minInput : Option UInt64
  maxInput : Option UInt64
  minOutput : Option UInt64
  maxOutput : Option UInt64
  ratio : Option Float
  completion : Option Float
  outputRatio : Option Float
  inputPrice : Option Float
  outputPrice : Option Float
  /-- Whether given prices are to be kept as ratios. -/
  asRatio : Bool
  deriving DecidableEq

/-- The draft of a new rule: no name, no bounds, and ratios of one. -/
def RuleDraft.blank : RuleDraft := ⟨"", .unlimited, .ratio 1.0 1.0 none⟩

namespace RuleFields

/-- No field is given. -/
def none : RuleFields :=
  ⟨.none, .none, .none, .none, .none, .none, .none, .none, .none, .none, false⟩

/-- Bounds with the given ones in their places. -/
def bounds (fields : RuleFields) (old : TokenBounds) : TokenBounds :=
  ⟨⟨fields.minInput.getD old.input.min, fields.maxInput.getD old.input.max⟩,
    ⟨fields.minOutput.getD old.output.min, fields.maxOutput.getD old.output.max⟩⟩

/-- Whether a price is given. -/
def givesPrice (fields : RuleFields) : Bool :=
  fields.inputPrice.isSome || fields.outputPrice.isSome

/-- Whether a ratio of the input side is given. -/
def givesInputRatio (fields : RuleFields) : Bool :=
  fields.ratio.isSome || fields.completion.isSome

/-- The prices that a draft starts from: its own, or zero where it has ratios. -/
def startPrices : DraftPricing → Float × Float
  | .price input output _ => (input, output)
  | .ratio _ _ _ => (0.0, 0.0)

/-- The ratios that a draft starts from: its own, or ones where it has prices. -/
def startRatios : DraftPricing → Float × Float × Option Float
  | .ratio input completion output => (input, completion, output)
  | .price _ _ _ => (1.0, 1.0, .none)

/-- Pricing with the given numbers in their places. Prices make it pricing in dollars. A new input
or completion ratio drops an output ratio that is not given with it. -/
def pricing (fields : RuleFields) (old : DraftPricing) : DraftPricing :=
  if fields.givesPrice then
    let (input, output) := startPrices old
    .price (fields.inputPrice.getD input) (fields.outputPrice.getD output) fields.asRatio
  else if fields.givesInputRatio || fields.outputRatio.isSome then
    let (input, completion, output) := startRatios old
    let kept := if fields.givesInputRatio then .none else output
    .ratio (fields.ratio.getD input) (fields.completion.getD completion)
      (fields.outputRatio.or kept)
  else old

/-- A draft with the given fields in their places. -/
def apply (fields : RuleFields) (draft : RuleDraft) : RuleDraft :=
  ⟨fields.name.getD draft.name, fields.bounds draft.bounds, fields.pricing draft.pricing⟩

/-- The edit that changes fields of the first rule of a name in a configuration. Where either is
missing, it is the rule that is not found. -/
def edit (fields : RuleFields) (snapshot : Snapshot) (config rule : String) :
    Except EditError Edit :=
  let old := (snapshot.configs.get? config).bind fun c => c.rules.find? (·.name == rule)
  match old with
  | .none => .error (.unknownRule config rule)
  | .some old => .ok (.replaceRule config rule (fields.apply old.draft))

end RuleFields

/-- What a user may ask to be changed in a snapshot. -/
inductive Change where
  | edit (edit : Edit)
  /-- Fields of the first rule of a name in a configuration. -/
  | fields (config rule : String) (fields : RuleFields)

/-- The edit that a change is, in a snapshot. -/
def Change.toEdit (snapshot : Snapshot) : Change → Except EditError Edit
  | edit e => .ok e
  | fields config rule given => given.edit snapshot config rule

end Tariff
