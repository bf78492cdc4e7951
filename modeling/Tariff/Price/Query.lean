import Tariff.Charge.Quota
import Tariff.Price.Quote
import Tariff.Price.Stored
import Tariff.Setup.Basic

/-!
# Questions about prices

* `Query`: a model, a group, and the size of a request.
* `Query.price?`, `Query.groups?`: the price of a model for one group, or for each. A model without
  a record of its own has a price only where a tier applies.
* `Query.cost?`: what a request costs under its tier.
-/

namespace Tariff

/-- What is asked about. -/
structure Query where
  model : String
  group : String
  tokens : TokenCounts
  /-- The unit to show prices for, unless it is the one that is set up. -/
  unit : Option TokenUnit
  deriving DecidableEq

/-- Why a question has no answer. -/
inductive QueryError where
  /-- A model has no record, and no tier applies. `setupFile` is where it could have one. -/
  | unknownModel (model setupFile : String)
  | noTier (model : String) (tokens : TokenCounts)
  | overflow (model : String) (cause : QuotaOverflow)
  deriving DecidableEq, Repr

def QueryError.message : QueryError → String
  | unknownModel model setupFile =>
    "Unknown model '" ++ model ++ "': add it under [[models]] in " ++ setupFile ++
      " or to a tier config"
  | noTier model tokens =>
    "No tier rule applies to '" ++ model ++ "' at " ++ Text.natText tokens.input.toNat ++
      " input / " ++ Text.natText tokens.output.toNat ++
      " output tokens; it is billed at its flat price"
  | overflow model _ => "Failed to compute the charge for '" ++ model ++ "'"

/-- The price of a model for one group. -/
structure PriceAnswer where
  model : String
  group : String
  ratio : Float
  unit : TokenUnit
  quote : Quote
  deriving DecidableEq

/-- The price of a model for each group. -/
structure GroupsAnswer where
  model : String
  unit : TokenUnit
  rows : List GroupQuote
  deriving DecidableEq

/-- What a request costs. -/
structure CostAnswer where
  model : String
  group : String
  ratio : Float
  tokens : TokenCounts
  tier : Resolution
  charge : Charge
  deriving DecidableEq

namespace Query

/-- What prices are quoted for. -/
def terms (query : Query) (setup : Setup) : Terms :=
  ⟨setup.basis, query.unit.getD setup.preferences.unit⟩

/-- The record of the model. One that only tiers know has a flat price of zero, which is never
shown. -/
def record? (query : Query) (setup : Setup) (setupFile : String) (snapshot : Snapshot) :
    Except QueryError ModelRecord :=
  match setup.model? query.model with
  | some record => .ok record
  | none =>
    if (snapshot.resolve? query.model query.tokens).isSome then .ok (.blank query.model)
    else .error (.unknownModel query.model setupFile)

/-- The price of the model for the group. -/
def price? (query : Query) (setup : Setup) (setupFile : String) (snapshot : Snapshot) :
    Except QueryError PriceAnswer :=
  (query.record? setup setupFile snapshot).map fun record =>
    let ratio := groupRatio setup.groups query.group
    let terms := query.terms setup
    ⟨query.model, query.group, ratio, terms.unit, quote snapshot record terms ratio query.tokens⟩

/-- The price of the model for each group that it is for. -/
def groups? (query : Query) (setup : Setup) (setupFile : String) (snapshot : Snapshot) :
    Except QueryError GroupsAnswer :=
  (query.record? setup setupFile snapshot).map fun record =>
    let terms := query.terms setup
    ⟨query.model, terms.unit, groupQuotes snapshot record setup.groups terms query.tokens⟩

/-- What the request costs. -/
def cost? (query : Query) (setup : Setup) (snapshot : Snapshot) : Except QueryError CostAnswer :=
  match snapshot.resolve? query.model query.tokens with
  | none => .error (.noTier query.model query.tokens)
  | some tier =>
    let ratio := groupRatio setup.groups query.group
    match charge tier.pricing query.tokens setup.basis ratio with
    | .error cause => .error (.overflow query.model cause)
    | .ok charge => .ok ⟨query.model, query.group, ratio, query.tokens, tier, charge⟩

end Query

end Tariff
