import Tariff.Price.Basis
import Tariff.Price.Model
import Tariff.Price.Unit
import Tariff.Tier.Snapshot

/-!
# Quoting prices

* `tierPrice`: what a rule's pricing comes to for a group, per display unit.
* `quote`: the price of a model for a group: by call, by the rule that the selected configuration
  has for a request, or the model's flat price.
* `groupQuotes`: a model's price for each group that it is for.
-/

namespace Tariff

/-- Dollars per display unit on either side. -/
structure TierPrice where
  input : Float
  output : Float
  deriving DecidableEq

/-- What a model's price is made of. -/
inductive Quote where
  /-- The price of a tier rule, per display unit. -/
  | tiered (config rule : String) (price : TierPrice)
  /-- The flat price of the model, per display unit. -/
  | metered (price : TierPrice)
  /-- Dollars per call. -/
  | perCall (price : Float)
  deriving DecidableEq

/-- What prices are quoted for: how ratios become dollars, and the display unit. -/
structure Terms where
  basis : Basis
  unit : TokenUnit
  deriving DecidableEq, Repr

/-- What a pricing comes to for a group. -/
def tierPrice (pricing : Pricing) (terms : Terms) (groupRatio : Float) : TierPrice :=
  let divisor := terms.unit.priceDivisor
  match pricing with
  | .absolute input output => ⟨input * groupRatio / divisor, output * groupRatio / divisor⟩
  | .ratio input _ _ =>
    let base := terms.basis.basePrice
    let output := pricing.outputRatio?.getD 0.0
    ⟨input * base * groupRatio / divisor, output * base * groupRatio / divisor⟩

/-- What a metered model costs where no tier applies. -/
def flatPrice (record : ModelRecord) (terms : Terms) (groupRatio : Float) : TierPrice :=
  let input := record.ratio * terms.basis.basePrice * groupRatio / terms.unit.priceDivisor
  ⟨input, input * record.completion⟩

/-- The price of a model for a group and a request. -/
def quote (snapshot : Snapshot) (record : ModelRecord) (terms : Terms) (groupRatio : Float)
    (tokens : TokenCounts) : Quote :=
  match record.billing with
  | .perCall => .perCall (record.price * groupRatio)
  | .metered =>
    let flat := Quote.metered (flatPrice record terms groupRatio)
    match snapshot.selected? record.name with
    | none => flat
    | some (name, config) =>
      match firstAdmitting? config.rules tokens with
      | some rule => .tiered name rule.name (tierPrice rule.pricing terms groupRatio)
      | none => flat

/-- One row of a model's prices by group. -/
structure GroupQuote where
  group : String
  ratio : Float
  quote : Quote
  deriving DecidableEq

/-- Groups that no model shows a price for. -/
def hiddenGroups : List String := ["", "auto"]

/-- Whether a model shows a price for a group. -/
def ModelRecord.shows (record : ModelRecord) (group : String) : Bool :=
  !hiddenGroups.contains group && (record.groups.isEmpty || record.groups.contains group)

/-- The price of a model for each group of the table that it shows, by ascending name. -/
def groupQuotes (snapshot : Snapshot) (record : ModelRecord) (groups : GroupTable) (terms : Terms)
    (tokens : TokenCounts) : List GroupQuote :=
  (groups.entries.filter fun e => record.shows e.1).map fun (group, ratio) =>
    ⟨group, ratio, Tariff.quote snapshot record terms ratio tokens⟩

end Tariff
