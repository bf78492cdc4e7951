import Tariff.Price.Conversion
import Tariff.Price.Query
import Tariff.Report.Prices
import Tariff.Tier.Stored

/-!
# Answers about prices

Every answer can be shown as a page and as JSON.

* `PriceAnswer`, `GroupsAnswer`, `CostAnswer`, `Conversion`: each with its `page` or `text` and its
  `json`.
-/

namespace Tariff

open Json (ofFloat ofUInt64)
open Report

/-! ## Prices -/

/-- A quote as JSON, with what it is made of. -/
def Quote.json : Quote → Json
  | tiered config rule price =>
    .object
      [("mode", .string "tiered"), ("config", .string config), ("rule", .string rule),
        ("input", ofFloat price.input), ("output", ofFloat price.output)]
  | metered price =>
    .object
      [("mode", .string "metered"), ("input", ofFloat price.input),
        ("output", ofFloat price.output)]
  | perCall price => .object [("mode", .string "per_call"), ("price", ofFloat price)]

/-- The prices of a quote as they are shown, for one that has two. -/
def Quote.shown? : Quote → Option Json
  | tiered _ _ price | metered price =>
    some (.object
      [("input_price", .string (priceText price.input)),
        ("output_price", .string (priceText price.output))])
  | perCall _ => none

namespace PriceAnswer

def page (answer : PriceAnswer) : Page :=
  quotePage answer.model answer.group answer.ratio answer.quote answer.unit

def json (answer : PriceAnswer) : Json :=
  .object <|
    [("model", .string answer.model), ("group", .string answer.group),
      ("group_ratio", ofFloat answer.ratio), ("unit", .string answer.unit.letter),
      ("price", answer.quote.json)] ++
    answer.quote.shown?.toList.map fun shown => ("formatted", shown)

end PriceAnswer

namespace GroupsAnswer

def page (answer : GroupsAnswer) : Page :=
  groupPage answer.model answer.rows answer.unit

def json (answer : GroupsAnswer) : Json :=
  .object
    [("model", .string answer.model), ("unit", .string answer.unit.letter),
      ("groups", .array (answer.rows.map fun row =>
        .object
          [("group", .string row.group), ("ratio", ofFloat row.ratio), ("price", row.quote.json)]))]

end GroupsAnswer

namespace CostAnswer

def page (answer : CostAnswer) : Page :=
  chargePage answer.model answer.tokens answer.tier answer.charge

def json (answer : CostAnswer) : Json :=
  .object
    [("model", .string answer.model), ("group", .string answer.group),
      ("group_ratio", ofFloat answer.ratio),
      ("tokens", .object
        [("input", ofUInt64 answer.tokens.input), ("output", ofUInt64 answer.tokens.output)]),
      ("tier", answer.tier.json),
      ("charge", .object
        [("quota", .string answer.charge.quota.text), ("usd", .string answer.charge.usd.text)])]

end CostAnswer

/-! ## Conversions -/

namespace Conversion

/-- What is to be said about a price that was missed. -/
def note? (c : Conversion) : Option String :=
  c.missed.map fun requested =>
    "a completion ratio cannot express output " ++ unitPriceText requested .million ++
      " with input " ++ unitPriceText c.inputPrice .million ++ "; output bills at " ++
      unitPriceText c.outputPrice .million

/-- The conversion on one line. -/
def text (c : Conversion) : String :=
  "ratio " ++ ratioText c.inputRatio ++ " (completion " ++ ratioText c.completionRatio ++
    ")  =  input " ++ unitPriceText c.inputPrice .million ++ ", output " ++
    unitPriceText c.outputPrice .million

def json (c : Conversion) : Json :=
  .object <|
    [("quota_per_unit", ofUInt64 c.basis.quotaPerUnit), ("input_ratio", ofFloat c.inputRatio),
      ("completion_ratio", ofFloat c.completionRatio), ("input_price", ofFloat c.inputPrice),
      ("output_price", ofFloat c.outputPrice)] ++
    c.note?.toList.map fun note => ("note", .string note)

end Conversion

end Tariff
