import Tariff.Table
import Tariff.Tier.Pattern
import Tariff.Tier.Rule

/-!
# Snapshots of tiered pricing

A snapshot is the whole of tiered pricing at one time: a switch, and named configurations, each with
the models it is for, a priority, and a list of rules.

* `Snapshot.candidates`: the enabled configurations in the order in which they are tried, larger
  priorities first and equal ones by name.
* `Snapshot.selected?`: the first candidate for a model. No other is tried, even where none of its
  rules admits the request.
* `Snapshot.resolve?`: the selected configuration and its first rule that admits a request.
-/

namespace Tariff

/-- A list of rules for the models of some patterns. -/
structure TierConfig where
  enabled : Bool
  models : ModelPatterns
  /-- Larger priorities are tried first. -/
  priority : Int64
  /-- The first rule that admits a request prices it. -/
  rules : List Rule
  deriving DecidableEq

/-- The whole of tiered pricing. -/
structure Snapshot where
  /-- The switch for tiered pricing as a whole. -/
  enabled : Bool
  configs : Table TierConfig
  deriving DecidableEq

/-- A configuration with its name. -/
abbrev NamedConfig := String × TierConfig

/-- What prices a request: a configuration, one of its rules, and the pricing of that rule. -/
structure Resolution where
  config : String
  rule : String
  pricing : Pricing
  deriving DecidableEq

/-- The first rule of a list that admits a request. -/
def firstAdmitting? (rules : List Rule) (tokens : TokenCounts) : Option Rule :=
  rules.find? (·.admits tokens)

namespace Snapshot

/-- Tiered pricing switched off and without configurations. -/
def empty : Snapshot := ⟨false, .empty⟩

/-- Named configurations by falling priority; those of equal priority stay in their order. -/
def byPriority (configs : List NamedConfig) : List NamedConfig :=
  configs.mergeSort fun a b => decide (b.2.priority ≤ a.2.priority)

/-- The enabled configurations in the order in which they are tried. -/
def candidates (snapshot : Snapshot) : List NamedConfig :=
  byPriority (snapshot.configs.entries.filter (·.2.enabled))

/-- The configuration that applies to a model. -/
def selected? (snapshot : Snapshot) (model : String) : Option NamedConfig :=
  if snapshot.enabled && model != "" then
    snapshot.candidates.find? (·.2.models.admits model)
  else none

/-- What prices a request for a model, unless it is priced flat. -/
def resolve? (snapshot : Snapshot) (model : String) (tokens : TokenCounts) : Option Resolution :=
  (snapshot.selected? model).bind fun (name, config) =>
    (firstAdmitting? config.rules tokens).map fun rule => ⟨name, rule.name, rule.pricing⟩

end Snapshot

end Tariff
