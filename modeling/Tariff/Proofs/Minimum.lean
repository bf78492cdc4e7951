import Tariff.Proofs.Charge
import Tariff.Proofs.Results

/-!
# The least charge

A request without tokens costs nothing, as its counts of zero absorb every factor, however large.
Any other costs at least one unit, as a smaller quota is raised to one, be it below zero. What a
quota is worth in dollars is never out of range and has its sign.

* `product?_of_zero`: a product that starts from zero.
* `exists_divNat?`: a decimal that is not negative has a quotient by every whole number but zero.
* `charge_of_no_tokens`, `charge_eq_ok`: a charge without tokens, and what every charge is made of.
* `used_tokens_cost_at_least_one_unit`: the least charge, for all numbers that a rule can hold.
-/

namespace Tariff

open Number Decimal

/-! ## Counts of zero -/

/-- A product that starts from zero is zero, and none of its factors is out of range. -/
theorem product?_of_zero {a : Decimal} (ha : a.units = 0) (factors : List Decimal) :
    product? (a :: factors) = some zero := by
  -- The product is zero from the first factor on, so no later one can take it out of range.
  have hfirst : mul? one a = some zero := if_pos (.inr (.inl ha))
  have hrest : factors.foldlM mul? zero = some zero := by
    induction factors with
    | nil => rfl
    | cons b rest ih =>
      rw [List.foldlM_cons, zero_mul?]
      exact ih
  unfold product?
  rw [List.foldlM_cons, hfirst]
  exact hrest

theorem sideByRatio?_zero (ratio : Float) (groupRatio : Decimal) :
    sideByRatio? 0 ratio groupRatio = some zero :=
  product?_of_zero rfl _

theorem sideByPrice?_zero (price : Float) (quotaPerUnit groupRatio : Decimal) :
    sideByPrice? 0 price quotaPerUnit groupRatio = some zero := by
  have hmillions : product? [ofUInt64 0, ofFloat price] = some zero := product?_of_zero rfl _
  have hdollars : zero.divNat? 1000000 = some zero := rfl
  unfold sideByPrice?
  rw [hmillions, Option.bind_some, hdollars]
  exact product?_of_zero rfl _

/-! ## Dollars -/

namespace Decimal

variable {a : Decimal}

theorem toRat_le_magnitude (ha : 0 ≤ a.units) : a.toRat ≤ a.magnitude := by
  rw [toRat_eq_magnitude ha]
  exact div_le_self (Nat.cast_nonneg _) (one_le_pow₀ (by norm_num))

/-- A whole divisor makes a decimal no larger, so the quotient is in range. -/
theorem fits_div (ha : 0 ≤ a.units) {divisor : ℕ} (hd : 0 < divisor) :
    Fits (a.toRat / divisor) 0 := by
  have hone : (1 : ℚ) ≤ divisor := by exact_mod_cast hd
  have hle : a.toRat / divisor ≤ a.magnitude :=
    (div_le_self (toRat_nonneg_iff.mpr ha) hone).trans (toRat_le_magnitude ha)
  unfold Fits
  calc halfEven (a.toRat / divisor * 10 ^ 0)
      = halfEven (a.toRat / divisor) := by rw [pow_zero, mul_one]
    _ ≤ halfEven (a.magnitude : ℚ) := halfEven_mono hle
    _ = a.magnitude := halfEven_natCast a.magnitude
    _ < unitLimit := a.units_lt

/-- A decimal that is not negative has a quotient by every whole number but zero. -/
theorem exists_divNat? (ha : 0 ≤ a.units) {divisor : ℕ} (hd : 0 < divisor) :
    ∃ q, a.divNat? divisor = some q ∧ (q.toRat : WithTop ℚ) = rounded (a.toRat / divisor) := by
  have hvalue := value_divNat? ha hd
  cases hq : a.divNat? divisor with
  | none =>
    rw [hq, value_none, rounded, if_pos (fits_div ha hd)] at hvalue
    cases hvalue
  | some q =>
    rw [hq, value_some] at hvalue
    exact ⟨q, rfl, hvalue⟩

end Decimal

/-- The worth of a quota of nothing, whatever a dollar buys. -/
theorem getD_divNat?_zero (divisor : ℕ) : (zero.divNat? divisor).getD zero = zero := by
  unfold divNat?
  by_cases hd : divisor = 0
  · rw [if_pos hd]
    rfl
  · rw [if_neg hd]
    rfl

/-! ## The charge -/

variable {pricing : Pricing} {tokens : TokenCounts} {basis : Basis} {groupRatio : Float}
  {total : Charge}

theorem TokenCounts.isEmpty_iff : tokens.isEmpty = true ↔ tokens = ⟨0, 0⟩ := by
  obtain ⟨input, output⟩ := tokens
  simp [isEmpty]

/-- What the minimum leaves of a quota where tokens were used. -/
theorem one_le_of_withMinimum {exact : Option Decimal} {quota : Decimal}
    (htokens : tokens.isEmpty = false) (h : withMinimum tokens exact = .ok quota) :
    1 ≤ quota.toRat := by
  cases exact with
  | none => cases h
  | some d =>
    cases h
    by_cases hsmall : d.ltOne = true
    · simp [htokens, hsmall]
    · rw [ltOne_iff, not_lt] at hsmall
      simpa [htokens, ltOne_iff, not_lt.mpr hsmall] using hsmall

theorem quotaByRatio_of_no_tokens (input output : Float) (groupRatio : Decimal) :
    quotaByRatio ⟨0, 0⟩ input output groupRatio = .ok zero := by
  unfold quotaByRatio
  dsimp only
  rw [sideByRatio?_zero, sideByRatio?_zero]
  rfl

theorem quotaByPrice_of_no_tokens (input output : Float) (quotaPerUnit groupRatio : Decimal) :
    quotaByPrice ⟨0, 0⟩ input output quotaPerUnit groupRatio = .ok zero := by
  unfold quotaByPrice
  dsimp only
  rw [sideByPrice?_zero, sideByPrice?_zero]
  rfl

/-- Without tokens nothing is charged. -/
theorem charge_of_no_tokens (pricing : Pricing) (basis : Basis) (groupRatio : Float) :
    charge pricing ⟨0, 0⟩ basis groupRatio = .ok ⟨zero, zero⟩ := by
  have hworth := getD_divNat?_zero basis.quotaPerUnit.toNat
  unfold charge
  cases pricing with
  | ratio input completion output =>
    dsimp only
    rw [quotaByRatio_of_no_tokens, Except.map, hworth]
  | absolute input output =>
    dsimp only
    rw [quotaByPrice_of_no_tokens, Except.map, hworth]

/-- A charge is a quota that the minimum was applied to, and its worth. -/
theorem charge_eq_ok (h : charge pricing tokens basis groupRatio = .ok total) :
    (∃ exact, withMinimum tokens exact = .ok total.quota) ∧
      total.usd = (total.quota.divNat? basis.quotaPerUnit.toNat).getD zero := by
  unfold charge at h
  obtain ⟨quota, hquota, rfl⟩ := map_eq_ok_iff.mp h
  refine ⟨?_, rfl⟩
  cases pricing with
  | ratio input completion output => exact ⟨_, hquota⟩
  | absolute input output => exact ⟨_, hquota⟩

/-- Whatever numbers a rule and a group hold, a request without tokens is charged nothing. Every
other request that is charged costs at least one unit and is worth no less than nothing in dollars:
the quota over the units that a dollar buys, rounded. -/
theorem used_tokens_cost_at_least_one_unit (pricing : Pricing) (basis : Basis)
    (groupRatio : Float) :
    (∃ total, charge pricing ⟨0, 0⟩ basis groupRatio = .ok total ∧
      total.quota.toRat = 0 ∧ total.usd.toRat = 0) ∧
    ∀ tokens, tokens ≠ ⟨0, 0⟩ → ∀ total, charge pricing tokens basis groupRatio = .ok total →
      1 ≤ total.quota.toRat ∧ 0 ≤ total.usd.toRat ∧
        (basis.quotaPerUnit ≠ 0 → (total.usd.toRat : WithTop ℚ) =
          rounded (total.quota.toRat / basis.quotaPerUnit.toNat)) := by
  refine ⟨⟨_, charge_of_no_tokens pricing basis groupRatio, toRat_zero, toRat_zero⟩,
    fun tokens hused total htotal => ?_⟩
  have hempty : tokens.isEmpty = false :=
    Bool.eq_false_iff.mpr fun hempty => hused (TokenCounts.isEmpty_iff.mp hempty)
  obtain ⟨⟨exact, hminimum⟩, husd⟩ := charge_eq_ok htotal
  have hquota : 1 ≤ total.quota.toRat := one_le_of_withMinimum hempty hminimum
  refine ⟨hquota, ?_⟩
  -- A dollar that buys no units has no quotient, and zero stands in for it.
  by_cases hunit : basis.quotaPerUnit.toNat = 0
  · rw [husd, hunit]
    exact ⟨toRat_zero.ge, fun hne => absurd (UInt64.toNat_inj.mp hunit) hne⟩
  · have hunits : 0 ≤ total.quota.units := toRat_nonneg_iff.mp (zero_le_one.trans hquota)
    obtain ⟨q, hq, hvalue⟩ := exists_divNat? hunits (Nat.pos_of_ne_zero hunit)
    rw [husd, hq, Option.getD_some]
    refine ⟨?_, fun _ => hvalue⟩
    have hnonneg : (0 : WithTop ℚ) ≤ q.toRat := hvalue ▸ rounded_nonneg
    exact WithTop.coe_nonneg.mp hnonneg

/-- At an input price below zero and an output price that is no number, a thousand tokens cost one
unit. -/
theorem refunded_tokens_cost_one_unit :
    ∃ total, charge (.absolute (-3.0) (0.0 / 0.0)) ⟨1000, 1⟩ ⟨500000⟩ 1.0 = .ok total ∧
      (⟨1000, 1⟩ : TokenCounts) ≠ ⟨0, 0⟩ ∧ total.quota = one ∧
      1 ≤ total.quota.toRat ∧ 0 ≤ total.usd.toRat := by
  have hquota : (charge (.absolute (-3.0) (0.0 / 0.0)) ⟨1000, 1⟩ ⟨500000⟩ 1.0).toOption.map
      (·.quota) = some one := by decide +kernel
  cases hcharge : charge (.absolute (-3.0) (0.0 / 0.0)) ⟨1000, 1⟩ ⟨500000⟩ 1.0 with
  | error fault =>
    rw [hcharge] at hquota
    cases hquota
  | ok total =>
    rw [hcharge] at hquota
    have hused : (⟨1000, 1⟩ : TokenCounts) ≠ ⟨0, 0⟩ := by decide
    obtain ⟨hone, husd, -⟩ :=
      (used_tokens_cost_at_least_one_unit _ _ _).2 ⟨1000, 1⟩ hused total hcharge
    exact ⟨total, rfl, hused, Option.some.inj hquota, hone, husd⟩

end Tariff
