import Tariff.Price.Basis
import Tariff.Price.Model
import Tariff.Price.Unit

/-!
# Setups

What a user sets up: how output looks, where tiered pricing is kept and with whom it is exchanged,
the multipliers of groups, and the flat prices of models.

* `Setup`: the whole. `Setup.initial`: the setup where there is none yet. `Setup.blank`: the setup
  of an empty file, which knows no models.
* `Setup.basis`, `Setup.model?`: what the rest of the library takes from it.
-/

namespace Tariff

/-- How output looks, and how many units of quota a dollar buys. -/
structure Preferences where
  /-- The format of answers, by its name. -/
  format : String
  /-- When answers are colored, by its name. -/
  color : String
  /-- The unit that prices are shown for. -/
  unit : TokenUnit
  /-- The quota units that a dollar buys; zero selects the default. -/
  quotaPerUnit : UInt64
  deriving DecidableEq, Repr

/-- The preferences of which nothing is set. -/
def Preferences.initial : Preferences := ⟨"text", "auto", .million, defaultQuotaPerUnit⟩

/-- The settings service that tiered pricing is exchanged with. -/
structure RemoteSetup where
  baseUrl : Option String
  /-- The environment variable that holds the access token. -/
  tokenVariable : String
  /-- The user that requests are made as. -/
  userId : Option UInt64
  deriving DecidableEq, Repr

/-- The settings service of which nothing is set. -/
def RemoteSetup.initial : RemoteSetup := ⟨none, "TIERPRICE_ACCESS_TOKEN", none⟩

/-- What a user sets up. -/
structure Setup where
  preferences : Preferences
  /-- The path of the file with tiered pricing, if it is set. -/
  pricingFile : Option String
  remote : RemoteSetup
  groups : GroupTable
  models : List ModelRecord
  deriving DecidableEq

namespace Setup

/-- The setup of which nothing is set. -/
def blank : Setup := ⟨.initial, none, .initial, Table.single "default" 1.0, []⟩

/-- The setup that a user starts from. -/
def initial : Setup :=
  { blank with
    models :=
      [⟨"gpt-4o", .metered, 1.25, 4.0, 0.0, ["default"]⟩,
        ⟨"gpt-4o-mini", .metered, 0.075, 4.0, 0.0, ["default"]⟩] }

/-- How ratios become dollars. -/
def basis (setup : Setup) : Basis :=
  .ofQuotaPerUnit setup.preferences.quotaPerUnit

/-- The first record of a model. -/
def model? (setup : Setup) (name : String) : Option ModelRecord :=
  setup.models.find? (·.name == name)

end Setup

end Tariff
