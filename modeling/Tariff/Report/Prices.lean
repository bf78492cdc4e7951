import Tariff.Charge.Quota
import Tariff.Price.Quote
import Tariff.Report.Amount
import Tariff.Report.Columns

/-!
# Pages of prices

* `quotePage`: the price of a model for one group.
* `groupPage`: the price of a model for each group.
* `chargePage`: what one request costs.
-/

namespace Tariff.Report

open Text

/-- The lines of an input and an output price. -/
def tierPriceLines (price : TierPrice) (unit : TokenUnit) : Page :=
  [[plain "  ", Style.cyan.on "Input", plain "     ", Style.green.on (priceText price.input),
      plain (" / " ++ unit.label)],
    [plain "  ", Style.cyan.on "Output", plain "    ", Style.green.on (priceText price.output),
      plain (" / " ++ unit.label)]]

/-- The lines of a quote. -/
def quoteLines (unit : TokenUnit) : Quote → Page
  | .tiered config rule price =>
    [plain "  ", Style.cyan.on "Tier", plain ("      " ++ config ++ " / " ++ rule)] ::
      tierPriceLines price unit
  | .metered price =>
    [plain "  ", Style.cyan.on "Tier", plain "      ", Style.dimmed.on "flat"] ::
      tierPriceLines price unit
  | .perCall price =>
    [[plain "  ", Style.cyan.on "Per call", plain "  ", Style.green.on (priceText price),
      plain " / call"]]

/-- The price of a model for one group. -/
def quotePage (model group : String) (groupRatio : Float) (quote : Quote) (unit : TokenUnit) :
    Page :=
  [Style.bold.on (" " ++ model ++ " (" ++ group ++ ", " ++ ratioText groupRatio ++ ")")] ::
    quoteLines unit quote

/-- Where a quote comes from, and its input and output price. -/
def quoteCells : Quote → List String
  | .tiered _ rule price => [rule, priceText price.input, priceText price.output]
  | .metered price => ["flat", priceText price.input, priceText price.output]
  | .perCall price => ["per call", priceText price, "-"]

/-- The price of a model for each group. -/
def groupPage (model : String) (rows : List GroupQuote) (unit : TokenUnit) : Page :=
  let header := ["Group", "Ratio", "Source", "Input/" ++ unit.label, "Output/" ++ unit.label]
  [plain " ", Style.bold.on model] ::
    if rows.isEmpty then [[plain "  ", Style.dimmed.on "Not available to any group"]]
    else
      columns header
        (rows.map fun row => row.group :: ratioText row.ratio :: quoteCells row.quote)

/-- What one request costs: quota with two places, dollars with six. -/
def chargePage (model : String) (tokens : TokenCounts) (tier : Resolution) (charge : Charge) :
    Page :=
  [[plain " ", Style.bold.on model],
    [plain "  ", Style.cyan.on "Tokens",
      plain ("    " ++ groupedText tokens.input ++ " in / " ++ groupedText tokens.output ++
        " out")],
    [plain "  ", Style.cyan.on "Tier",
      plain ("      " ++ tier.config ++ " / " ++ tier.rule ++ " (" ++ tier.pricing.label ++ ")")],
    [plain "  ", Style.cyan.on "Quota", plain ("     " ++ (charge.quota.round 2).text)],
    [plain "  ", Style.cyan.on "Cost", plain "      ",
      Style.green.on ("$" ++ (charge.usd.round 6).text)]]

end Tariff.Report
