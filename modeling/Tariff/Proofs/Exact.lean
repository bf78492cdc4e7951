import Tariff.Proofs.Charge

/-!
# Quotas that need no rounding

An operation whose exact result is a decimal has that result, whatever the signs of its operands. A
charge of which this is so at every step is the formula it computes, and the two ways of pricing
charge the same where prices and ratios correspond.

* `IsDecimal`: a number that needs no rounding. `Gives`: a result that is there, with its number.
* `exists_fit?_of_isDecimal`: the common last step of all operations is exact.
* `Gives.mul`, `Gives.add`, `Gives.divNat`, `Gives.product_concat`: the operations.
* `UnroundedByRatio`, `UnroundedByPrice`: nothing on the way to a quota needs rounding.
* `unrounded_quotas_are_exact`: the formulas.
-/

namespace Tariff

open Number Decimal

namespace Decimal

/-- A number that needs no rounding: fewer than `2 ^ 96` units, and at most 28 decimal places. -/
def IsDecimal (q : ℚ) : Prop :=
  ∃ (units : ℤ) (scale : ℕ), units.natAbs < unitLimit ∧ scale ≤ maxScale ∧ q = units / 10 ^ scale

/-- A result is there, and it is the number `q`. -/
def Gives (x : Option Decimal) (q : ℚ) : Prop :=
  ∃ d, x = some d ∧ d.toRat = q

variable {a b : Decimal} {x y : Option Decimal} {q r : ℚ}

theorem isDecimal_toRat (a : Decimal) : IsDecimal a.toRat :=
  ⟨a.units, a.scale, a.units_lt, a.scale_le, rfl⟩

theorem IsDecimal.rounded_abs (h : IsDecimal q) : rounded |q| = (|q| : ℚ) := by
  obtain ⟨units, scale, hunits, hscale, rfl⟩ := h
  have habs : |(units : ℚ) / 10 ^ scale| = (units.natAbs : ℚ) / 10 ^ scale := by
    rw [abs_div, Nat.cast_natAbs, Int.cast_abs, abs_of_pos (by positivity : (0 : ℚ) < 10 ^ scale)]
  rw [habs]
  exact rounded_of_exact hunits hscale

/-! ## The operations -/

/-- The last step leaves a number that needs no rounding as it is, and gives it its sign. -/
theorem exists_fit?_of_isDecimal (negative : Bool) {num den scale : ℕ} (hden : 0 < den)
    (hexact : maxScale ≤ scale ∨ ¬ Fits ((num : ℚ) / (den * 10 ^ scale)) (scale + 1) ∨ den ∣ num)
    (h : IsDecimal q) (habs : |q| = (num : ℚ) / (den * 10 ^ scale)) :
    Gives (fit? negative num den scale) (withSign negative |q|) := by
  have hrounded := h.rounded_abs
  rw [habs] at hrounded ⊢
  cases hfit : fit? negative num den scale with
  | none =>
    unfold rounded at hrounded
    rw [if_neg (fit?_eq_none hden hfit)] at hrounded
    cases hrounded
  | some d =>
    obtain ⟨magnitude, hmagnitude, hd⟩ := rounded_of_fit? hden hexact hfit
    rw [hrounded] at hmagnitude
    exact ⟨d, rfl, by rw [hd, WithTop.coe_injective hmagnitude]⟩

theorem mul?_gives (h : IsDecimal (a.toRat * b.toRat)) : Gives (mul? a b) (a.toRat * b.toRat) := by
  unfold mul?
  split
  · rename_i hzero
    refine ⟨zero, rfl, ?_⟩
    rw [toRat_zero]
    rcases hzero with ha | hb | hvanishes
    · rw [toRat_eq_zero ha, zero_mul]
    · rw [toRat_eq_zero hb, mul_zero]
    · -- A product of so many places needs no rounding only if it is zero.
      have habs := h.rounded_abs
      rw [rounded_of_vanishes hvanishes] at habs
      exact (abs_eq_zero.mp (WithTop.coe_injective habs).symm).symm
  · have hgives := exists_fit?_of_isDecimal (a.isNegative != b.isNegative) one_pos
      (.inr (.inr (one_dvd _))) h (abs_toRat_mul a b)
    rwa [abs_mul, withSign_mul, withSign_abs_toRat, withSign_abs_toRat] at hgives

theorem add?_gives (h : IsDecimal (a.toRat + b.toRat)) : Gives (add? a b) (a.toRat + b.toRat) := by
  unfold add?
  split
  · rename_i ha
    exact ⟨b, rfl, by rw [toRat_eq_zero ha, zero_add]⟩
  · split
    · rename_i hb
      exact ⟨a, rfl, by rw [toRat_eq_zero hb, add_zero]⟩
    · have hgives := exists_fit?_of_isDecimal (decide (a.toRat + b.toRat < 0)) one_pos
        (.inr (.inr (one_dvd _))) h (abs_toRat_add a b)
      rw [withSign_abs rfl] at hgives
      have hsign : (a.unitsAt (max a.scale b.scale) + b.unitsAt (max a.scale b.scale) < 0) ↔
          a.toRat + b.toRat < 0 := by
        rw [toRat_add, div_lt_iff₀ (by positivity), zero_mul]
        exact_mod_cast Iff.rfl
      simpa only [hsign] using hgives

theorem divNat?_gives {divisor : ℕ} (hd : 0 < divisor) (h : IsDecimal (a.toRat / divisor)) :
    Gives (divNat? a divisor) (a.toRat / divisor) := by
  unfold divNat?
  rw [if_neg hd.ne']
  split
  · rename_i ha
    exact ⟨zero, rfl, by rw [toRat_eq_zero ha, zero_div, toRat_zero]⟩
  · have hends := refine_ends hd ⟨a.magnitude / divisor, a.magnitude % divisor, a.scale⟩
    have hsign : withSign a.isNegative |a.toRat / divisor| = a.toRat / divisor := by
      rw [abs_div, Nat.abs_cast, ← withSign_div, withSign_abs_toRat]
    obtain ⟨q, hq, hvalue⟩ := exists_fit?_of_isDecimal a.isNegative hd (hends.exact hd) h
      (by rw [← Division.toRat, hends.toRat_eq, toRat_start])
    dsimp only
    rw [hq, Option.bind_some]
    split
    · exact ⟨q, rfl, hvalue.trans hsign⟩
    · obtain ⟨d, hstrip, hsame⟩ := exists_make?_strip a.isNegative q
      refine ⟨d, hstrip, ?_⟩
      have habs : |q.toRat| = |a.toRat / divisor| := by
        rw [hvalue]
        cases a.isNegative
        · exact abs_abs _
        · exact (abs_neg _).trans (abs_abs _)
      rw [hsame, habs, hsign]

/-! ## Chains of operations -/

theorem Gives.bind {f : Decimal → Option Decimal} (hx : Gives x q)
    (hf : ∀ a, a.toRat = q → Gives (f a) r) : Gives (x.bind f) r := by
  obtain ⟨a, rfl, ha⟩ := hx
  exact hf a ha

theorem Gives.mul (hx : Gives x q) (h : IsDecimal (q * b.toRat)) :
    Gives (x.bind (·.mul? b)) (q * b.toRat) := by
  obtain ⟨a, rfl, rfl⟩ := hx
  exact mul?_gives h

theorem Gives.divNat {divisor : ℕ} (hx : Gives x q) (hd : 0 < divisor)
    (h : IsDecimal (q / divisor)) : Gives (x.bind (·.divNat? divisor)) (q / divisor) := by
  obtain ⟨a, rfl, rfl⟩ := hx
  exact divNat?_gives hd h

theorem Gives.total (hx : Gives x q) (hy : Gives y r) (h : IsDecimal (q + r)) :
    Gives (total? x y) (q + r) := by
  obtain ⟨a, rfl, rfl⟩ := hx
  obtain ⟨b, rfl, rfl⟩ := hy
  exact add?_gives h

theorem gives_product?_nil : Gives (product? []) 1 := ⟨one, rfl, toRat_one⟩

theorem Gives.product_concat {factors : List Decimal} (hx : Gives (product? factors) q)
    (h : IsDecimal (q * b.toRat)) : Gives (product? (factors ++ [b])) (q * b.toRat) := by
  obtain ⟨d, hd, hvalue⟩ := hx.mul h
  refine ⟨d, ?_, hvalue⟩
  unfold product? at hd ⊢
  rw [List.foldlM_append]
  simpa using hd

theorem gives_product?_single (a : Decimal) : Gives (product? [a]) a.toRat := by
  have hone : 1 * a.toRat = a.toRat := one_mul _
  have hgives := gives_product?_nil.product_concat (b := a) (by rw [hone]; exact isDecimal_toRat a)
  rwa [hone] at hgives

end Decimal

/-! ## The quota of a side -/

/-- What one side of a request costs at a ratio. -/
def ratioQuota (count : UInt64) (ratio : Float) (groupRatio : Decimal) : ℚ :=
  count.toNat * (ofFloat ratio).toRat * groupRatio.toRat

/-- What one side of a request costs at a price per million tokens. -/
def priceQuota (count : UInt64) (price : Float) (quotaPerUnit groupRatio : Decimal) : ℚ :=
  count.toNat * (ofFloat price).toRat / 10 ^ 6 * quotaPerUnit.toRat * groupRatio.toRat

/-- Nothing on the way to the quota of a side at a ratio needs rounding. -/
structure SideUnroundedByRatio (count : UInt64) (ratio : Float) (groupRatio : Decimal) : Prop where
  tokens : IsDecimal (count.toNat * (ofFloat ratio).toRat)
  quota : IsDecimal (ratioQuota count ratio groupRatio)

/-- Nothing on the way to the quota of a side at a price needs rounding. -/
structure SideUnroundedByPrice (count : UInt64) (price : Float)
    (quotaPerUnit groupRatio : Decimal) : Prop where
  millions : IsDecimal (count.toNat * (ofFloat price).toRat)
  dollars : IsDecimal (count.toNat * (ofFloat price).toRat / 10 ^ 6)
  units : IsDecimal (count.toNat * (ofFloat price).toRat / 10 ^ 6 * quotaPerUnit.toRat)
  quota : IsDecimal (priceQuota count price quotaPerUnit groupRatio)

section Sides

variable {count : UInt64} {rate price ratio : Float} {quotaPerUnit groupRatio : Decimal}

theorem gives_tokens (h : IsDecimal (count.toNat * (ofFloat rate).toRat)) :
    Gives (product? [ofUInt64 count, ofFloat rate]) (count.toNat * (ofFloat rate).toRat) := by
  have hcount := gives_product?_single (ofUInt64 count)
  rw [toRat_ofUInt64] at hcount
  exact hcount.product_concat h

theorem SideUnroundedByRatio.gives (h : SideUnroundedByRatio count ratio groupRatio) :
    Gives (sideByRatio? count ratio groupRatio) (ratioQuota count ratio groupRatio) :=
  (gives_tokens h.tokens).product_concat h.quota

theorem SideUnroundedByPrice.gives (h : SideUnroundedByPrice count price quotaPerUnit groupRatio) :
    Gives (sideByPrice? count price quotaPerUnit groupRatio)
      (priceQuota count price quotaPerUnit groupRatio) := by
  have hcast : ((1000000 : ℕ) : ℚ) = 10 ^ 6 := by norm_num
  have hdollars := (gives_tokens h.millions).divNat (show 0 < 1000000 by norm_num)
    (by rw [hcast]; exact h.dollars)
  rw [hcast] at hdollars
  unfold sideByPrice?
  rw [← Option.bind_assoc]
  refine hdollars.bind fun dollars hvalue => ?_
  have hfactor := gives_product?_single dollars
  rw [hvalue] at hfactor
  exact (hfactor.product_concat h.units).product_concat h.quota

/-- What the tokens cost at a ratio is what they cost at a price that corresponds to it. -/
theorem tokens_eq_units
    (h : (ofFloat price).toRat * quotaPerUnit.toRat = 10 ^ 6 * (ofFloat ratio).toRat) :
    (count.toNat : ℚ) * (ofFloat ratio).toRat =
      count.toNat * (ofFloat price).toRat / 10 ^ 6 * quotaPerUnit.toRat := by
  linear_combination -(count.toNat : ℚ) / 10 ^ 6 * h

theorem ratioQuota_eq_priceQuota
    (h : (ofFloat price).toRat * quotaPerUnit.toRat = 10 ^ 6 * (ofFloat ratio).toRat) :
    ratioQuota count ratio groupRatio = priceQuota count price quotaPerUnit groupRatio := by
  unfold ratioQuota priceQuota
  rw [tokens_eq_units h]

/-- What a ratio needs is among what a price that corresponds to it needs. -/
theorem SideUnroundedByPrice.byRatio
    (h : SideUnroundedByPrice count price quotaPerUnit groupRatio)
    (hratio : (ofFloat price).toRat * quotaPerUnit.toRat = 10 ^ 6 * (ofFloat ratio).toRat) :
    SideUnroundedByRatio count ratio groupRatio := by
  refine ⟨?_, ?_⟩
  · rw [tokens_eq_units hratio]
    exact h.units
  · rw [ratioQuota_eq_priceQuota hratio]
    exact h.quota

end Sides

/-! ## The quota of a request -/

/-- A quota, raised to one unit where tokens were used. -/
def raised (tokens : TokenCounts) (q : ℚ) : ℚ :=
  if tokens.isEmpty = false ∧ q < 1 then 1 else q

/-- Nothing on the way to the quota of a request at two ratios needs rounding. -/
structure UnroundedByRatio (tokens : TokenCounts) (input output : Float) (groupRatio : Decimal) :
    Prop where
  inputSide : SideUnroundedByRatio tokens.input input groupRatio
  outputSide : SideUnroundedByRatio tokens.output output groupRatio
  total : IsDecimal
    (ratioQuota tokens.input input groupRatio + ratioQuota tokens.output output groupRatio)

/-- Nothing on the way to the quota of a request at two prices needs rounding. -/
structure UnroundedByPrice (tokens : TokenCounts) (input output : Float)
    (quotaPerUnit groupRatio : Decimal) : Prop where
  inputSide : SideUnroundedByPrice tokens.input input quotaPerUnit groupRatio
  outputSide : SideUnroundedByPrice tokens.output output quotaPerUnit groupRatio
  total : IsDecimal (priceQuota tokens.input input quotaPerUnit groupRatio +
    priceQuota tokens.output output quotaPerUnit groupRatio)

theorem exists_withMinimum (tokens : TokenCounts) {x : Option Decimal} {q : ℚ} (hx : Gives x q) :
    ∃ quota, withMinimum tokens x = .ok quota ∧ quota.toRat = raised tokens q := by
  obtain ⟨d, rfl, rfl⟩ := hx
  refine ⟨_, rfl, ?_⟩
  have hcond : ((!tokens.isEmpty && d.ltOne) = true) ↔ tokens.isEmpty = false ∧ d.toRat < 1 := by
    rw [Bool.and_eq_true, Bool.not_eq_true', ltOne_iff]
  unfold raised
  simp only [hcond]
  split
  · exact toRat_one
  · rfl

section Request

variable {tokens : TokenCounts} {input output : Float} {quotaPerUnit groupRatio : Decimal}

theorem UnroundedByRatio.exists_quota (h : UnroundedByRatio tokens input output groupRatio) :
    ∃ quota, quotaByRatio tokens input output groupRatio = .ok quota ∧
      quota.toRat = raised tokens
        (ratioQuota tokens.input input groupRatio + ratioQuota tokens.output output groupRatio) :=
  exists_withMinimum tokens (h.inputSide.gives.total h.outputSide.gives h.total)

theorem UnroundedByPrice.exists_quota
    (h : UnroundedByPrice tokens input output quotaPerUnit groupRatio) :
    ∃ quota, quotaByPrice tokens input output quotaPerUnit groupRatio = .ok quota ∧
      quota.toRat = raised tokens (priceQuota tokens.input input quotaPerUnit groupRatio +
        priceQuota tokens.output output quotaPerUnit groupRatio) :=
  exists_withMinimum tokens (h.inputSide.gives.total h.outputSide.gives h.total)

end Request

/-- Where nothing needs rounding, a request costs what the formulas say, raised to one unit if
tokens were used. So prices cost what ratios cost that correspond to them; for those, nothing needs
rounding either. -/
theorem unrounded_quotas_are_exact (tokens : TokenCounts) (quotaPerUnit groupRatio : Decimal) :
    (∀ input output, UnroundedByRatio tokens input output groupRatio →
      ∃ quota, quotaByRatio tokens input output groupRatio = .ok quota ∧
        quota.toRat = raised tokens
          ((tokens.input.toNat * (ofFloat input).toRat +
            tokens.output.toNat * (ofFloat output).toRat) * groupRatio.toRat)) ∧
    (∀ input output, UnroundedByPrice tokens input output quotaPerUnit groupRatio →
      ∃ quota, quotaByPrice tokens input output quotaPerUnit groupRatio = .ok quota ∧
        quota.toRat = raised tokens
          ((tokens.input.toNat * (ofFloat input).toRat +
            tokens.output.toNat * (ofFloat output).toRat) / 10 ^ 6 *
            quotaPerUnit.toRat * groupRatio.toRat)) ∧
    ∀ input output input' output' : Float,
      UnroundedByPrice tokens input output quotaPerUnit groupRatio →
      (ofFloat input).toRat * quotaPerUnit.toRat = 10 ^ 6 * (ofFloat input').toRat →
      (ofFloat output).toRat * quotaPerUnit.toRat = 10 ^ 6 * (ofFloat output').toRat →
      ∃ quota quota', quotaByPrice tokens input output quotaPerUnit groupRatio = .ok quota ∧
        quotaByRatio tokens input' output' groupRatio = .ok quota' ∧
        quota.toRat = quota'.toRat := by
  refine ⟨fun input output h => ?_, fun input output h => ?_,
    fun input output input' output' h hinput houtput => ?_⟩
  · obtain ⟨quota, hquota, hvalue⟩ := h.exists_quota
    refine ⟨quota, hquota, hvalue.trans ?_⟩
    unfold ratioQuota
    rw [add_mul]
  · obtain ⟨quota, hquota, hvalue⟩ := h.exists_quota
    refine ⟨quota, hquota, hvalue.trans ?_⟩
    unfold priceQuota
    rw [add_div, add_mul, add_mul]
  · have hsame : ∀ count, ratioQuota count input' groupRatio =
        priceQuota count input quotaPerUnit groupRatio := fun _ => ratioQuota_eq_priceQuota hinput
    have hsame' : ∀ count, ratioQuota count output' groupRatio =
        priceQuota count output quotaPerUnit groupRatio := fun _ => ratioQuota_eq_priceQuota houtput
    have hratio : UnroundedByRatio tokens input' output' groupRatio :=
      ⟨h.inputSide.byRatio hinput, h.outputSide.byRatio houtput,
        by rw [hsame, hsame']; exact h.total⟩
    obtain ⟨quota, hquota, hvalue⟩ := h.exists_quota
    obtain ⟨quota', hquota', hvalue'⟩ := hratio.exists_quota
    rw [hsame, hsame'] at hvalue'
    exact ⟨quota, quota', hquota, hquota', hvalue.trans hvalue'.symm⟩

theorem toRat_of_parts {a : Decimal} (units : ℤ) (scale : ℕ) (hunits : a.units = units)
    (hscale : a.scale = scale) : a.toRat = units / 10 ^ scale := by
  rw [toRat, hunits, hscale]

/-- At a half for the group, a thousand tokens at ten cents and two thousand at three dollars cost
1525 units, and no less at the ratios that correspond to these prices. -/
theorem prices_cost_what_ratios_cost :
    ∃ quota quota', quotaByPrice ⟨1000, 2000⟩ 0.1 3.0 (ofUInt64 500000) (ofFloat 0.5) = .ok quota ∧
      quotaByRatio ⟨1000, 2000⟩ 0.05 1.5 (ofFloat 0.5) = .ok quota' ∧
      quota.toRat = 1525 ∧ quota'.toRat = 1525 := by
  have hdime : (ofFloat 0.1).toRat = 1 / 10 :=
    (toRat_of_parts 1 1 (by decide +kernel) (by decide +kernel)).trans
      (by norm_num)
  have hthree : (ofFloat 3.0).toRat = 3 :=
    (toRat_of_parts 3 0 (by decide +kernel) (by decide +kernel)).trans
      (by norm_num)
  have hhalf : (ofFloat 0.5).toRat = 1 / 2 :=
    (toRat_of_parts 5 1 (by decide +kernel) (by decide +kernel)).trans
      (by norm_num)
  have hratio : (ofFloat 0.05).toRat = 1 / 20 :=
    (toRat_of_parts 5 2 (by decide +kernel) (by decide +kernel)).trans
      (by norm_num)
  have hratio' : (ofFloat 1.5).toRat = 3 / 2 :=
    (toRat_of_parts 15 1 (by decide +kernel) (by decide +kernel)).trans
      (by norm_num)
  have hinput : (1000 : UInt64).toNat = 1000 := rfl
  have houtput : (2000 : UInt64).toNat = 2000 := rfl
  have hunits : (ofUInt64 500000).toRat = 500000 := toRat_ofUInt64 500000
  have hprice : UnroundedByPrice ⟨1000, 2000⟩ 0.1 3.0 (ofUInt64 500000) (ofFloat 0.5) := by
    refine ⟨⟨⟨100, 0, ?_⟩, ⟨1, 4, ?_⟩, ⟨50, 0, ?_⟩, ⟨25, 0, ?_⟩⟩,
      ⟨⟨6000, 0, ?_⟩, ⟨6, 3, ?_⟩, ⟨3000, 0, ?_⟩, ⟨1500, 0, ?_⟩⟩, ⟨1525, 0, ?_⟩⟩ <;>
    · refine ⟨by decide, by decide, ?_⟩
      norm_num [priceQuota, hinput, houtput, hdime, hthree, hhalf, hunits]
  obtain ⟨-, hexact, hsame⟩ :=
    unrounded_quotas_are_exact ⟨1000, 2000⟩ (ofUInt64 500000) (ofFloat 0.5)
  obtain ⟨quota, quota', hquota, hquota', heq⟩ := hsame 0.1 3.0 0.05 1.5 hprice
    (by rw [hdime, hunits, hratio]; norm_num) (by rw [hthree, hunits, hratio']; norm_num)
  obtain ⟨found, hfound, hvalue⟩ := hexact 0.1 3.0 hprice
  cases hfound.symm.trans hquota
  have hcost : quota.toRat = 1525 := by
    rw [hvalue]
    norm_num [raised, hinput, houtput, hdime, hthree, hhalf, hunits]
  exact ⟨quota, quota', hquota, hquota', hcost, heq ▸ hcost⟩

end Tariff
