import Tariff.Charge.FromFloat
import Tariff.Price.Basis
import Tariff.Tier.Rule

/-!
# Charging a request

The quota that a request costs under a rule's pricing, in decimals.

* `quotaByRatio`, `quotaByPrice`: the two ways of pricing.
* `charge`: the quota of a pricing, and what it is worth in dollars.
* A request that used tokens costs at least one unit of quota, and a quota that no decimal can hold
  is an overflow.
-/

namespace Tariff

open Decimal

/-- A quota that no decimal can hold. -/
structure QuotaOverflow where
  tokens : TokenCounts
  deriving DecidableEq, Repr

def QuotaOverflow.message (fault : QuotaOverflow) : String :=
  "Quota for " ++ Text.natText fault.tokens.input.toNat ++ " input / " ++
    Text.natText fault.tokens.output.toNat ++ " output tokens is too large to represent"

/-- A quota and its worth in dollars. -/
structure Charge where
  quota : Decimal
  usd : Decimal
  deriving DecidableEq

/-- The product of all factors, if every step is in range. -/
def product? (factors : List Decimal) : Option Decimal :=
  factors.foldlM mul? one

/-- A quota, raised to one unit where tokens were used. -/
def withMinimum (tokens : TokenCounts) : Option Decimal → Except QuotaOverflow Decimal
  | none => .error ⟨tokens⟩
  | some quota => .ok (if !tokens.isEmpty && quota.ltOne then one else quota)

/-- The sum of the quotas of both sides, if both and the sum are in range. -/
def total? (input output : Option Decimal) : Option Decimal :=
  input.bind fun a => output.bind fun b => a.add? b

/-- The quota of one side at a ratio. -/
def sideByRatio? (count : UInt64) (ratio : Float) (groupRatio : Decimal) : Option Decimal :=
  product? [ofUInt64 count, ofFloat ratio, groupRatio]

/-- The quota of one side at a price per million tokens. -/
def sideByPrice? (count : UInt64) (price : Float) (quotaPerUnit groupRatio : Decimal) :
    Option Decimal :=
  (product? [ofUInt64 count, ofFloat price]).bind fun millions =>
    (millions.divNat? 1000000).bind fun dollars => product? [dollars, quotaPerUnit, groupRatio]

/-- The quota of a request at an input and an output ratio. -/
def quotaByRatio (tokens : TokenCounts) (input output : Float) (groupRatio : Decimal) :
    Except QuotaOverflow Decimal :=
  withMinimum tokens
    (total? (sideByRatio? tokens.input input groupRatio)
      (sideByRatio? tokens.output output groupRatio))

/-- The quota of a request at prices per million tokens. -/
def quotaByPrice (tokens : TokenCounts) (input output : Float) (quotaPerUnit groupRatio : Decimal) :
    Except QuotaOverflow Decimal :=
  withMinimum tokens
    (total? (sideByPrice? tokens.input input quotaPerUnit groupRatio)
      (sideByPrice? tokens.output output quotaPerUnit groupRatio))

/-- The output multiplier that is billed: a completion ratio of zero counts as one there. -/
def Pricing.billedOutputRatio (pricing : Pricing) : Float :=
  match pricing with
  | .ratio input completion none => if completion == 0.0 then input else input * completion
  | .ratio _ _ (some output) => output
  | .absolute _ _ => 0.0

/-- What a request costs under a pricing. -/
def charge (pricing : Pricing) (tokens : TokenCounts) (basis : Basis) (groupRatio : Float) :
    Except QuotaOverflow Charge :=
  let quota := match pricing with
    | .absolute input output =>
      quotaByPrice tokens input output (ofUInt64 basis.quotaPerUnit) (ofFloat groupRatio)
    | .ratio input _ _ => quotaByRatio tokens input pricing.billedOutputRatio (ofFloat groupRatio)
  quota.map fun quota => ⟨quota, (quota.divNat? basis.quotaPerUnit.toNat).getD zero⟩

end Tariff
