import Mathlib.Data.Nat.Find
import Mathlib.Algebra.Order.Monoid.WithTop
import Tariff.Charge.Decimal
import Tariff.Proofs.Rounding

/-!
# What decimals stand for

Every operation on decimals is the exact operation on rational numbers followed by one rounding,
and the rounding depends on the exact result alone.

* `Decimal.toRat`: the number of a decimal. `Decimal.value`: the number of a result, where no
  result counts as larger than every number.
* `rounded`: a number rounded with as many places as fit.
* `rounded_mono`: rounding keeps the order, and what is too large stays too large.
* `rounded_of_exact`: a number that is a decimal stays as it is.
-/

namespace Tariff.Decimal

open Number

/-- The number that a decimal stands for. -/
def toRat (a : Decimal) : ℚ := a.units / 10 ^ a.scale

/-- The number of a result; no result counts as larger than every number. -/
def value : Option Decimal → WithTop ℚ
  | none => ⊤
  | some a => (a.toRat : ℚ)

/-- Rounded to `scale` places, `q` has few enough units. -/
def Fits (q : ℚ) (scale : ℕ) : Prop := halfEven (q * 10 ^ scale) < unitLimit

instance (q : ℚ) : DecidablePred (Fits q) := fun _ => Nat.decLt _ _

/-- The most places that `q` fits with. -/
def places (q : ℚ) : ℕ := Nat.findGreatest (Fits q) maxScale

/-- `q` with as many places as fit, or more than every number where even whole numbers are too
large. -/
def rounded (q : ℚ) : WithTop ℚ :=
  if Fits q 0 then (((halfEven (q * 10 ^ places q) : ℚ) / 10 ^ places q : ℚ) : WithTop ℚ) else ⊤

/-! ## How many places fit -/

variable {p q : ℚ} {s t : ℕ}

theorem Fits.anti (h : Fits q s) (hpq : p ≤ q) : Fits p s :=
  lt_of_le_of_lt (halfEven_mono (mul_le_mul_of_nonneg_right hpq (by positivity))) h

theorem Fits.of_le (hq : 0 ≤ q) (h : Fits q t) (hst : s ≤ t) : Fits q s :=
  lt_of_le_of_lt (halfEven_mono
    (mul_le_mul_of_nonneg_left (pow_le_pow_right₀ (by norm_num) hst) hq)) h

theorem fits_places (h : Fits q 0) : Fits q (places q) :=
  Nat.findGreatest_spec (Nat.zero_le _) h

theorem places_le : places q ≤ maxScale := Nat.findGreatest_le _

theorem le_places (hs : s ≤ maxScale) (h : Fits q s) : s ≤ places q := Nat.le_findGreatest hs h

/-- Half a unit above the limit, a number no longer fits. -/
theorem le_mul_of_not_fits (hq : 0 ≤ q) (h : ¬ Fits q s) :
    (unitLimit : ℚ) - 1 / 2 ≤ q * 10 ^ s := by
  have hle : (unitLimit : ℚ) ≤ halfEven (q * 10 ^ s) := by exact_mod_cast not_lt.mp h
  have := halfEven_le (q := q * 10 ^ s) (by positivity)
  linarith

/-! ## Rounding -/

/-- Rounding at `s` places is rounding with as many as fit, if no more fit or none are needed. -/
theorem rounded_eq (hq : 0 ≤ q) (hs : s ≤ maxScale) (hfit : Fits q s)
    (h : s = maxScale ∨ ¬ Fits q (s + 1) ∨ ∃ n : ℕ, q * 10 ^ s = n) :
    rounded q = (((halfEven (q * 10 ^ s) : ℚ) / 10 ^ s : ℚ) : WithTop ℚ) := by
  have h0 : Fits q 0 := hfit.of_le hq (Nat.zero_le s)
  have hle : s ≤ places q := le_places hs hfit
  unfold rounded
  rw [if_pos h0, WithTop.coe_inj]
  rcases h with h | h | ⟨n, hn⟩
  · rw [le_antisymm hle (h ▸ places_le)]
  · have hlt : ¬ s < places q := fun hlt => h ((fits_places h0).of_le hq hlt)
    rw [le_antisymm hle (not_lt.mp hlt)]
  · -- Both sides are `q` itself.
    have hmore : q * 10 ^ places q = ((n * 10 ^ (places q - s) : ℕ) : ℚ) := by
      push_cast
      rw [← hn, mul_assoc, ← pow_add, Nat.add_sub_cancel' hle]
    rw [hmore, halfEven_natCast, ← hmore, hn, halfEven_natCast, ← hn]
    field_simp

/-- A number that is a decimal stays as it is. -/
theorem rounded_of_exact {n : ℕ} (hn : n < unitLimit) (hs : s ≤ maxScale) :
    rounded ((n : ℚ) / 10 ^ s) = ((n : ℚ) / 10 ^ s : ℚ) := by
  have hq : (n : ℚ) / 10 ^ s * 10 ^ s = n := by field_simp
  have hfit : Fits ((n : ℚ) / 10 ^ s) s := by
    unfold Fits
    rw [hq, halfEven_natCast]
    exact hn
  rw [rounded_eq (by positivity) hs hfit (.inr (.inr ⟨n, hq⟩)), hq, halfEven_natCast]

theorem rounded_zero : rounded 0 = (0 : ℚ) := by
  have h := rounded_of_exact (n := 0) (s := 0) (by decide) (Nat.zero_le _)
  simpa using h

theorem rounded_nonneg : 0 ≤ rounded q := by
  unfold rounded
  split
  · exact_mod_cast (by positivity : (0 : ℚ) ≤ _)
  · exact le_top

/-- Rounding keeps the order. Where the larger number keeps fewer places than the smaller one, it is
so close to the limit that it stays above all that fits with one place more. -/
theorem rounded_mono (hp : 0 ≤ p) (hpq : p ≤ q) : rounded p ≤ rounded q := by
  have hq : 0 ≤ q := hp.trans hpq
  unfold rounded
  by_cases hfq : Fits q 0
  · have hfp : Fits p 0 := hfq.anti hpq
    rw [if_pos hfq, if_pos hfp, WithTop.coe_le_coe]
    have hle : places q ≤ places p := le_places places_le ((fits_places hfq).anti hpq)
    rcases hle.eq_or_lt with heq | hlt
    · rw [heq]
      gcongr
      exact_mod_cast halfEven_mono (mul_le_mul_of_nonneg_right hpq (by positivity))
    · have hno : ¬ Fits q (places q + 1) := fun hfit => by
        have := le_places (hlt.trans_le places_le) hfit
        omega
      have hlarge := le_mul_of_not_fits hq hno
      have hround := le_halfEven (q * 10 ^ places q)
      have hunits : (7922816251426433759354395034 : ℚ) ≤ halfEven (q * 10 ^ places q) := by
        have : (7922816251426433759354395033 : ℚ) < halfEven (q * 10 ^ places q) := by
          rw [pow_succ] at hlarge
          norm_num [unitLimit] at hlarge
          linarith
        exact_mod_cast this
      have hsmall : (halfEven (p * 10 ^ places p) : ℚ) ≤ 79228162514264337593543950335 := by
        have := fits_places hfp
        unfold Fits unitLimit at this
        exact_mod_cast Nat.le_of_lt_succ this
      have hpow : (10 : ℚ) ^ (places q + 1) ≤ 10 ^ places p :=
        pow_le_pow_right₀ (by norm_num) hlt
      calc (halfEven (p * 10 ^ places p) : ℚ) / 10 ^ places p
          ≤ 79228162514264337593543950335 / 10 ^ (places q + 1) := by gcongr
        _ ≤ 7922816251426433759354395034 / 10 ^ places q := by
          rw [pow_succ, div_le_div_iff₀ (by positivity) (by positivity)]
          nlinarith [pow_pos (show (0 : ℚ) < 10 by norm_num) (places q)]
        _ ≤ halfEven (q * 10 ^ places q) / 10 ^ places q := by gcongr
  · rw [if_neg hfq]
    exact le_top

end Tariff.Decimal
