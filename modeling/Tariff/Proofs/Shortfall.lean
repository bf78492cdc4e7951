import Tariff.Proofs.Division

/-!
# How far decimals fall short

Every operation on decimals loses a small share of the exact result and one unit of the last place
at most. A lack that an operand has is multiplied with the other operand, so a product needs to know
how large its factors can be.

* `short`: what is left of a number that is rounded once.
* `Covers`: a decimal that is not much smaller than a number.
* `Covers.mul`, `Covers.div`, `Covers.add`: what an operation does to such a bound.
-/

namespace Tariff.Decimal

open Number

variable {a b c : Decimal} {p q : ℚ}

/-- What is left of a number in the worst case when it is counted in decimals: nearly all of it,
less one unit of the last decimal place. -/
def short (q : ℚ) : ℚ := (1 - 1 / 10 ^ 12) * q - 1 / 10 ^ 28

/-! ## One rounding -/

theorem short_mono (h : p ≤ q) : short p ≤ short q := by
  unfold short
  linarith

/-- Rounding loses half of the last of 28 places, or next to nothing of a number with fewer. -/
theorem short_le_rounded (hq : 0 ≤ q) : (short q : WithTop ℚ) ≤ rounded q := by
  unfold rounded
  split
  · have hround := le_halfEven (q * 10 ^ places q)
    have hpow : (0 : ℚ) < 10 ^ places q := by positivity
    rw [WithTop.coe_le_coe, le_div_iff₀ hpow]
    unfold short
    rcases (places_le : places q ≤ maxScale).eq_or_lt with hall | hfewer
    · rw [hall] at hround ⊢
      norm_num [maxScale] at hround ⊢
      linarith
    · have hmore : ¬ Fits q (places q + 1) := fun hfit => by
        have := le_places hfewer hfit
        omega
      have hlarge := le_mul_of_not_fits hq hmore
      rw [pow_succ, ← mul_assoc] at hlarge
      norm_num [unitLimit] at hlarge
      linarith
  · exact le_top

/-- A result that is in range is not negative, and not much smaller than the exact one. -/
theorem le_of_value (hp : 0 ≤ p) {x : Option Decimal} (hx : value x = rounded p) (h : x = some c) :
    0 ≤ c.toRat ∧ short p ≤ c.toRat := by
  rw [h, value_some] at hx
  have hle := short_le_rounded hp
  have hnonneg := rounded_nonneg (q := p)
  rw [← hx] at hle hnonneg
  exact ⟨WithTop.coe_nonneg.mp hnonneg, WithTop.coe_le_coe.mp hle⟩

/-- Decimals stay below the limit. -/
theorem toRat_lt (ha : 0 ≤ a.toRat) : a.toRat < 2 ^ 96 := by
  have hlimit : (a.magnitude : ℚ) < 2 ^ 96 := by exact_mod_cast a.units_lt
  rw [toRat_eq_magnitude (toRat_nonneg_iff.mp ha), div_lt_iff₀ (by positivity)]
  calc (a.magnitude : ℚ) < 2 ^ 96 := hlimit
    _ ≤ 2 ^ 96 * 10 ^ a.scale := le_mul_of_one_le_right (by norm_num) (one_le_pow₀ (by norm_num))

/-! ## Bounds from below -/

/-- `a` is at least the share `α` of `q`, but for a lack of `β`. -/
structure Covers (α β q : ℚ) (a : Decimal) : Prop where
  nonneg : 0 ≤ a.toRat
  le : α * q - β ≤ a.toRat

variable {α β γ δ X Y : ℚ}

theorem Covers.weaken (h : Covers α β q a) (hq : 0 ≤ q) (hα : γ ≤ α) (hβ : β ≤ δ) :
    Covers γ δ q a := by
  refine ⟨h.nonneg, le_trans ?_ h.le⟩
  gcongr

theorem Covers.congr (h : Covers α β q a) (heq : b.toRat = a.toRat) : Covers α β q b :=
  ⟨heq ▸ h.nonneg, heq ▸ h.le⟩

theorem covers_ofUInt64 (n : UInt64) : Covers 1 0 n.toNat (ofUInt64 n) := by
  refine ⟨?_, ?_⟩
  · rw [toRat_ofUInt64]
    positivity
  · rw [toRat_ofUInt64]
    linarith

theorem Covers.mul (ha : Covers α β p a) (hb : Covers γ δ q b) (hq : 0 ≤ q) (hγ : 0 ≤ γ)
    (hβ : 0 ≤ β) (hδ : 0 ≤ δ) (haX : a.toRat ≤ X) (hqY : q ≤ Y)
    (h : a.mul? b = some c) :
    Covers ((1 - 1 / 10 ^ 12) * (α * γ)) (β * γ * Y + δ * X + 1 / 10 ^ 28) (p * q) c := by
  have hvalue := value_mul? (toRat_nonneg_iff.mp ha.nonneg) (toRat_nonneg_iff.mp hb.nonneg)
  obtain ⟨hnonneg, hle⟩ := le_of_value (mul_nonneg ha.nonneg hb.nonneg) hvalue h
  refine ⟨hnonneg, ?_⟩
  have hprod : α * γ * (p * q) - (β * γ * Y + δ * X) ≤ a.toRat * b.toRat := by
    have hleft : (α * p - β) * (γ * q) ≤ a.toRat * (γ * q) := by
      have := ha.le
      gcongr
    have hright : a.toRat * (γ * q - δ) ≤ a.toRat * b.toRat :=
      mul_le_mul_of_nonneg_left hb.le ha.nonneg
    have hlackq : β * γ * q ≤ β * γ * Y := by gcongr
    have hlacka : δ * a.toRat ≤ δ * X := by gcongr
    linarith
  have hlack : 0 ≤ β * γ * Y + δ * X := by
    have := ha.nonneg.trans haX
    have := hq.trans hqY
    positivity
  calc (1 - 1 / 10 ^ 12) * (α * γ) * (p * q) - (β * γ * Y + δ * X + 1 / 10 ^ 28)
      ≤ short (α * γ * (p * q) - (β * γ * Y + δ * X)) := by
        unfold short
        linarith
    _ ≤ short (a.toRat * b.toRat) := short_mono hprod
    _ ≤ c.toRat := hle

theorem Covers.div (ha : Covers α β p a) (hβ : 0 ≤ β) {n : ℕ} (hn : 0 < n)
    (h : a.divNat? n = some c) :
    Covers ((1 - 1 / 10 ^ 12) * α) (β / n + 1 / 10 ^ 28) (p / n) c := by
  have hn' : (0 : ℚ) < n := by exact_mod_cast hn
  have hvalue := value_divNat? (toRat_nonneg_iff.mp ha.nonneg) hn
  obtain ⟨hnonneg, hle⟩ := le_of_value (div_nonneg ha.nonneg hn'.le) hvalue h
  refine ⟨hnonneg, ?_⟩
  have hquot : α * (p / n) - β / n ≤ a.toRat / n := by
    have := div_le_div_of_nonneg_right ha.le hn'.le
    calc α * (p / n) - β / n = (α * p - β) / n := by ring
      _ ≤ a.toRat / n := this
  have hlack : 0 ≤ β / n := by positivity
  calc (1 - 1 / 10 ^ 12) * α * (p / n) - (β / n + 1 / 10 ^ 28)
      ≤ short (α * (p / n) - β / n) := by
        unfold short
        linarith
    _ ≤ short (a.toRat / n) := short_mono hquot
    _ ≤ c.toRat := hle

theorem Covers.add (ha : Covers α β p a) (hb : Covers α δ q b) (hβ : 0 ≤ β) (hδ : 0 ≤ δ)
    (h : a.add? b = some c) :
    Covers ((1 - 1 / 10 ^ 12) * α) (β + δ + 1 / 10 ^ 28) (p + q) c := by
  have hvalue := value_add? (toRat_nonneg_iff.mp ha.nonneg) (toRat_nonneg_iff.mp hb.nonneg)
  obtain ⟨hnonneg, hle⟩ := le_of_value (add_nonneg ha.nonneg hb.nonneg) hvalue h
  refine ⟨hnonneg, ?_⟩
  have hsum : α * (p + q) - (β + δ) ≤ a.toRat + b.toRat := by
    have := ha.le
    have := hb.le
    linarith
  calc (1 - 1 / 10 ^ 12) * α * (p + q) - (β + δ + 1 / 10 ^ 28)
      ≤ short (α * (p + q) - (β + δ)) := by
        unfold short
        linarith
    _ ≤ short (a.toRat + b.toRat) := short_mono hsum
    _ ≤ c.toRat := hle

/-! ## Factors that change nothing, or leave nothing -/

theorem exists_one_mul (hb : 0 ≤ b.toRat) : ∃ c, one.mul? b = some c ∧ c.toRat = b.toRat := by
  have hunits := toRat_nonneg_iff.mp hb
  have hvalue := value_mul? (a := one) (by decide) hunits
  rw [toRat_one, one_mul, rounded_toRat hunits] at hvalue
  cases hc : one.mul? b with
  | none =>
    rw [hc] at hvalue
    cases hvalue
  | some c =>
    rw [hc, value_some] at hvalue
    exact ⟨c, rfl, WithTop.coe_injective hvalue⟩

theorem zero_mul? (b : Decimal) : zero.mul? b = some zero := if_pos (.inl rfl)

theorem mul?_zero (a : Decimal) : a.mul? zero = some zero := if_pos (.inr (.inl rfl))

end Tariff.Decimal
