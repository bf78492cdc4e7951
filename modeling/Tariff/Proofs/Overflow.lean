import Tariff.Proofs.Charge
import Tariff.Proofs.Shortfall

/-!
# Quotas that are too large

A quota that no decimal can hold is an overflow. The products and the sum notice one, but a number
that has no decimal itself counts for nothing before they see it.

* `exactQuota`: the quota of a request before anything is rounded.
* `Pricing.HasDecimals`: decimals hold the numbers that a pricing charges at.
* `sideByRatio?_comesClose`, `sideByPrice?_comesClose`: the quota of one side comes close to the
  exact one.
* `huge_quota_overflows`: where decimals hold all the numbers, too large a quota is an overflow.
* `charge_of_huge_ratios`: where they hold neither ratio, every request costs one unit.
-/

namespace Tariff

open Number Decimal

variable {p q α β γ δ X Y : ℚ} {count : UInt64} {x rate price groupRatio : Float} {basis : Basis}
  {tokens : TokenCounts} {a b c : Decimal}

/-! ## Numbers that decimals hold -/

/-- Decimals hold the number of a float: it is not negative and below the limit. -/
structure HasDecimal (x : Float) : Prop where
  amount : isAmount x = true
  lt : numberOf x < 2 ^ 96

/-- A price that is not zero has a digit among the first 27 decimal places. -/
def NotTiny (price : Float) : Prop := numberOf price = 0 ∨ 1 / 10 ^ 27 ≤ numberOf price

/-- Decimals hold the numbers that tokens are charged at, and no price is tiny that is multiplied
with very many units to the dollar. -/
def Pricing.HasDecimals (pricing : Pricing) (basis : Basis) : Prop :=
  match pricing with
  | .absolute input output => HasDecimal input ∧ HasDecimal output ∧
      (basis.quotaPerUnit.toNat ≤ 10 ^ 14 ∨ NotTiny input ∧ NotTiny output)
  | .ratio input _ _ => HasDecimal input ∧ HasDecimal pricing.billedOutputRatio

theorem HasDecimal.nonneg (h : HasDecimal x) : 0 ≤ numberOf x := numberOf_nonneg h.amount

theorem HasDecimal.covers (h : HasDecimal x) :
    Covers (1 - 1 / 10 ^ 12) (1 / 10 ^ 28) (numberOf x) (ofFloat x) :=
  ⟨ofFloat_nonneg (isAmount_iff.mp h.amount).2, short_le_ofFloat h.amount h.lt⟩

/-- What a price that is not tiny loses is a share of it. -/
theorem NotTiny.covers (h : NotTiny price) (hprice : HasDecimal price) :
    Covers (9 / 10 - 1 / 10 ^ 12) 0 (numberOf price) (ofFloat price) := by
  have hcovers := hprice.covers
  refine ⟨hcovers.nonneg, ?_⟩
  rcases h with hzero | hle
  · rw [hzero]
    linarith [hcovers.nonneg]
  · have hprice := hcovers.le
    norm_num at hprice ⊢
    linarith

/-! ## One side -/

/-- `c` is so little below the exact quota `q` of one side that two such sides of together twice the
limit still overflow. -/
def ComesClose (q : ℚ) (c : Decimal) : Prop := Covers (4 / 5) (2 ^ 94) q c

theorem toNat_le (n : UInt64) : (n.toNat : ℚ) ≤ 2 ^ 64 := by
  exact_mod_cast n.toNat_lt.le

theorem toRat_ofUInt64_le (n : UInt64) : (ofUInt64 n).toRat ≤ 2 ^ 64 := by
  rw [toRat_ofUInt64]
  exact toNat_le n

/-- The last factor of a product. -/
theorem product?_concat (factors : List Decimal) (h : product? (factors ++ [b]) = some c) :
    ∃ a, product? factors = some a ∧ a.mul? b = some c := by
  unfold product? at h
  rw [List.foldlM_append] at h
  obtain ⟨a, ha, h⟩ := Option.bind_eq_some_iff.mp h
  obtain ⟨_, hmul, ⟨⟩⟩ := Option.bind_eq_some_iff.mp h
  exact ⟨a, ha, hmul⟩

/-- A product starts at its first factor. -/
theorem toRat_product?_single (ha : 0 ≤ a.toRat) (h : product? [a] = some c) :
    c.toRat = a.toRat := by
  obtain ⟨b, hb, heq⟩ := exists_one_mul ha
  obtain ⟨d, hd, ⟨⟩⟩ := Option.bind_eq_some_iff.mp h
  cases hb.symm.trans hd
  exact heq

theorem Decimal.Covers.product (ha : Covers α β p a) (hb : Covers γ δ q b) (hq : 0 ≤ q) (hγ : 0 ≤ γ)
    (hβ : 0 ≤ β) (hδ : 0 ≤ δ) (haX : a.toRat ≤ X) (hqY : q ≤ Y) (h : product? [a, b] = some c) :
    Covers ((1 - 1 / 10 ^ 12) * (α * γ)) (β * γ * Y + δ * X + 1 / 10 ^ 28) (p * q) c := by
  obtain ⟨first, hfirst, hmul⟩ := product?_concat [a] h
  have heq := toRat_product?_single ha.nonneg hfirst
  exact (ha.congr heq).mul hb hq hγ hβ hδ (heq.trans_le haX) hqY hmul

theorem sideByRatio?_comesClose (hrate : HasDecimal rate) (hgroup : HasDecimal groupRatio)
    (h : sideByRatio? count rate (ofFloat groupRatio) = some c) :
    ComesClose (count.toNat * numberOf rate * numberOf groupRatio) c := by
  obtain ⟨billed, hbilled, hquota⟩ := product?_concat [ofUInt64 count, ofFloat rate] h
  have hbilled := (covers_ofUInt64 count).product hrate.covers hrate.nonneg (by norm_num) le_rfl
    (by norm_num) (toRat_ofUInt64_le count) hrate.lt.le hbilled
  have hquota := hbilled.mul hgroup.covers hgroup.nonneg (by norm_num) (by norm_num) (by norm_num)
    (toRat_lt hbilled.nonneg).le hgroup.lt.le hquota
  have hexact : 0 ≤ count.toNat * numberOf rate * numberOf groupRatio := by
    have := hrate.nonneg
    have := hgroup.nonneg
    positivity
  exact hquota.weaken hexact (by norm_num) (by norm_num)

/-- A lack of the price is multiplied with the units that a dollar buys, so the two are bounded
together. -/
theorem sideByPrice?_comesClose_of (hprice : HasDecimal price) (hgroup : HasDecimal groupRatio)
    (hcovers : Covers γ δ (numberOf price) (ofFloat price)) (hγ : 9 / 10 - 1 / 10 ^ 12 ≤ γ)
    (hδ : 0 ≤ δ) (hX : (basis.quotaPerUnit.toNat : ℚ) ≤ X) (hlarge : X ≤ 2 ^ 64)
    (hlack : δ * X ≤ 1 / 10 ^ 14)
    (h : sideByPrice? count price (ofUInt64 basis.quotaPerUnit) (ofFloat groupRatio) = some c) :
    ComesClose
      (count.toNat * numberOf price / 10 ^ 6 * basis.quotaPerUnit.toNat * numberOf groupRatio)
      c := by
  have hγ' : 0 ≤ γ := by linarith
  have hX' : 0 ≤ X := (Nat.cast_nonneg _).trans hX
  obtain ⟨millions, hmillions, h⟩ := Option.bind_eq_some_iff.mp h
  obtain ⟨dollars, hdollars, h⟩ := Option.bind_eq_some_iff.mp h
  obtain ⟨units, hunits, hquota⟩ := product?_concat [dollars, ofUInt64 basis.quotaPerUnit] h
  have hmillions := (covers_ofUInt64 count).product hcovers hprice.nonneg hγ' le_rfl hδ
    (toRat_ofUInt64_le count) hprice.lt.le hmillions
  have hdollars := hmillions.div (by positivity) (by norm_num) hdollars
  have hunits := hdollars.product (covers_ofUInt64 basis.quotaPerUnit) (by positivity) zero_le_one
    (by positivity) le_rfl (toRat_lt hdollars.nonneg).le hX hunits
  have hquota := hunits.mul hgroup.covers hgroup.nonneg (by norm_num) (by positivity)
    (by norm_num) (toRat_lt hunits.nonneg).le hgroup.lt.le hquota
  have hexact : 0 ≤ count.toNat * numberOf price / 10 ^ 6 * basis.quotaPerUnit.toNat *
      numberOf groupRatio := by
    have := hprice.nonneg
    have := hgroup.nonneg
    positivity
  refine Covers.weaken hquota hexact ?_ ?_
  · norm_num
    linarith
  · norm_num
    linarith

theorem sideByPrice?_comesClose (hprice : HasDecimal price) (hgroup : HasDecimal groupRatio)
    (hsize : basis.quotaPerUnit.toNat ≤ 10 ^ 14 ∨ NotTiny price)
    (h : sideByPrice? count price (ofUInt64 basis.quotaPerUnit) (ofFloat groupRatio) = some c) :
    ComesClose
      (count.toNat * numberOf price / 10 ^ 6 * basis.quotaPerUnit.toNat * numberOf groupRatio)
      c := by
  rcases hsize with hfew | hlarge
  · have hfew' : (basis.quotaPerUnit.toNat : ℚ) ≤ 10 ^ 14 := by exact_mod_cast hfew
    exact sideByPrice?_comesClose_of hprice hgroup hprice.covers (by norm_num) (by norm_num) hfew'
      (by norm_num) (by norm_num) h
  · exact sideByPrice?_comesClose_of hprice hgroup (hlarge.covers hprice) le_rfl le_rfl (toNat_le _)
      le_rfl (by norm_num) h

/-! ## The charge -/

/-- The quota of a request before anything is rounded. -/
def exactQuota (pricing : Pricing) (tokens : TokenCounts) (basis : Basis) (groupRatio : Float) :
    ℚ :=
  match pricing with
  | .absolute input output =>
    (tokens.input.toNat * numberOf input + tokens.output.toNat * numberOf output) / 10 ^ 6 *
      basis.quotaPerUnit.toNat * numberOf groupRatio
  | .ratio input _ _ =>
    (tokens.input.toNat * numberOf input +
      tokens.output.toNat * numberOf pricing.billedOutputRatio) * numberOf groupRatio

/-- Sides that come close to those of too large a quota have no sum. -/
theorem total?_eq_none {input output : Option Decimal} (h : 2 ^ 97 ≤ p + q)
    (hinput : ∀ a, input = some a → ComesClose p a)
    (houtput : ∀ a, output = some a → ComesClose q a) :
    total? input output = none := by
  by_contra hsome
  obtain ⟨c, hc⟩ := Option.ne_none_iff_exists'.mp hsome
  obtain ⟨a, ha, hc⟩ := Option.bind_eq_some_iff.mp hc
  obtain ⟨b, hb, hc⟩ := Option.bind_eq_some_iff.mp hc
  have hsum := Covers.add (hinput a ha) (houtput b hb) (by norm_num) (by norm_num) hc
  have hlt := toRat_lt hsum.nonneg
  have hle := hsum.le
  norm_num at h hlt hle
  linarith

/-- Where decimals hold the numbers that a request is charged at, a quota of twice the limit is an
overflow and is never charged as something smaller. -/
theorem huge_quota_overflows {pricing : Pricing} (hpricing : pricing.HasDecimals basis)
    (hgroup : HasDecimal groupRatio) (h : 2 ^ 97 ≤ exactQuota pricing tokens basis groupRatio) :
    charge pricing tokens basis groupRatio = .error ⟨tokens⟩ := by
  cases pricing with
  | absolute input output =>
    obtain ⟨hinput, houtput, hsize⟩ := hpricing
    have htotal : total?
        (sideByPrice? tokens.input input (ofUInt64 basis.quotaPerUnit) (ofFloat groupRatio))
        (sideByPrice? tokens.output output (ofUInt64 basis.quotaPerUnit) (ofFloat groupRatio)) =
          none := by
      refine total?_eq_none (h.trans (le_of_eq ?_))
        (fun a ha => sideByPrice?_comesClose hinput hgroup (hsize.imp_right And.left) ha)
        (fun a ha => sideByPrice?_comesClose houtput hgroup (hsize.imp_right And.right) ha)
      unfold exactQuota
      ring
    unfold charge quotaByPrice
    dsimp only
    rw [htotal]
    rfl
  | ratio input completion output =>
    obtain ⟨hinput, houtput⟩ := hpricing
    have htotal : total? (sideByRatio? tokens.input input (ofFloat groupRatio))
        (sideByRatio? tokens.output (Pricing.ratio input completion output).billedOutputRatio
          (ofFloat groupRatio)) = none := by
      refine total?_eq_none (h.trans (le_of_eq ?_))
        (fun a ha => sideByRatio?_comesClose hinput hgroup ha)
        (fun a ha => sideByRatio?_comesClose houtput hgroup ha)
      unfold exactQuota
      ring
    unfold charge quotaByRatio
    dsimp only
    rw [htotal]
    rfl

theorem numberOf_one : numberOf 1.0 = 1 := by
  have hshape : Shape.ofFloat 1.0 = .finite ⟨false, 4503599627370496, -52⟩ := by decide +kernel
  rw [numberOf_eq hshape rfl]
  norm_num [Binary.abs]

/-- As many tokens as can be counted, at ten thousand million units each, overflow. -/
theorem all_tokens_overflow :
    (Pricing.ratio 1e10 1.0 none).HasDecimals ⟨500000⟩ ∧ HasDecimal 1.0 ∧
      2 ^ 97 ≤ exactQuota (.ratio 1e10 1.0 none) ⟨18446744073709551615, 0⟩ ⟨500000⟩ 1.0 ∧
      charge (.ratio 1e10 1.0 none) ⟨18446744073709551615, 0⟩ ⟨500000⟩ 1.0 =
        .error ⟨⟨18446744073709551615, 0⟩⟩ := by
  have hten : numberOf 1e10 = 10 ^ 10 := by
    have hshape : Shape.ofFloat 1e10 = .finite ⟨false, 5242880000000000, -19⟩ := by decide +kernel
    rw [numberOf_eq hshape rfl]
    norm_num [Binary.abs]
  have hbilled : (Pricing.ratio 1e10 1.0 none).billedOutputRatio = 1e10 := by decide +kernel
  have hinput : HasDecimal 1e10 := ⟨by decide +kernel, by rw [hten]; norm_num⟩
  have hgroup : HasDecimal 1.0 := ⟨by decide +kernel, by rw [numberOf_one]; norm_num⟩
  have hpricing : (Pricing.ratio 1e10 1.0 none).HasDecimals ⟨500000⟩ := by
    refine ⟨hinput, ?_⟩
    rw [hbilled]
    exact hinput
  have hhuge : 2 ^ 97 ≤
      exactQuota (.ratio 1e10 1.0 none) ⟨18446744073709551615, 0⟩ ⟨500000⟩ 1.0 := by
    have hcount : UInt64.toNat 18446744073709551615 = 18446744073709551615 := rfl
    unfold exactQuota
    dsimp only
    rw [hten, numberOf_one, hcount]
    norm_num
  exact ⟨hpricing, hgroup, hhuge, huge_quota_overflows hpricing hgroup hhuge⟩

/-! ## Ratios that no decimal holds -/

/-- At a ratio from the limit on, tokens cost nothing. -/
theorem sideByRatio?_eq_zero (h : 2 ^ 96 ≤ numberOf rate) (group : Decimal) :
    sideByRatio? count rate group = some zero := by
  obtain ⟨tokens, htokens, -⟩ := exists_one_mul (covers_ofUInt64 count).nonneg
  unfold sideByRatio? product?
  rw [ofFloat_eq_zero h, List.foldlM_cons, htokens, Option.bind_eq_bind, Option.bind_some,
    List.foldlM_cons, mul?_zero, Option.bind_eq_bind, Option.bind_some, List.foldlM_cons, zero_mul?]
  rfl

/-- Where both ratios are from the limit on, every request with tokens costs one unit. -/
theorem charge_of_huge_ratios {input completion : Float} {output : Option Float}
    (hinput : 2 ^ 96 ≤ numberOf input)
    (houtput : 2 ^ 96 ≤ numberOf (Pricing.ratio input completion output).billedOutputRatio)
    (htokens : tokens.isEmpty = false) :
    charge (.ratio input completion output) tokens basis groupRatio =
      .ok ⟨one, (one.divNat? basis.quotaPerUnit.toNat).getD zero⟩ := by
  have hquota : quotaByRatio tokens input (Pricing.ratio input completion output).billedOutputRatio
      (ofFloat groupRatio) = .ok one := by
    unfold quotaByRatio
    rw [sideByRatio?_eq_zero hinput, sideByRatio?_eq_zero houtput]
    unfold withMinimum total?
    rw [Option.bind_some, Option.bind_some, htokens]
    rfl
  unfold charge
  dsimp only
  rw [hquota]
  rfl

/-- One token at a ratio of `10 ^ 30` costs one unit, although its exact quota is more than twice
the limit. -/
theorem token_of_huge_ratio_costs_one_unit :
    isAmount 1e30 = true ∧ isAmount (Pricing.ratio 1e30 1.0 none).billedOutputRatio = true ∧
      isAmount 1.0 = true ∧ 2 ^ 97 ≤ exactQuota (.ratio 1e30 1.0 none) ⟨1, 0⟩ ⟨500000⟩ 1.0 ∧
      (charge (.ratio 1e30 1.0 none) ⟨1, 0⟩ ⟨500000⟩ 1.0).toOption.map (·.quota) = some one := by
  have hratio : 2 ^ 99 ≤ numberOf 1e30 := by
    have hshape : Shape.ofFloat 1e30 = .finite ⟨false, 7105427357601002, 47⟩ := by decide +kernel
    rw [numberOf_eq hshape rfl]
    norm_num [Binary.abs]
  have hbilled : (Pricing.ratio 1e30 1.0 none).billedOutputRatio = 1e30 := by decide +kernel
  have hlimit : 2 ^ 96 ≤ numberOf 1e30 := by linarith
  refine ⟨by decide +kernel, by decide +kernel, by decide +kernel, ?_, ?_⟩
  · have hcount : UInt64.toNat 1 = 1 := rfl
    unfold exactQuota
    dsimp only
    rw [numberOf_one, hcount]
    norm_num
    linarith
  · rw [charge_of_huge_ratios hlimit (by rw [hbilled]; exact hlimit) (by decide)]
    rfl

end Tariff
