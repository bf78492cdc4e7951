import Tariff.Number.Scientific
import Tariff.Proofs.Float.Operations

/-!
# Numerals read back

* `Numeral.abs`: the number of a numeral without its sign.
* `ofFloat_toFloat`: a numeral is read as the float nearest to its number, so numerals of one number
  are read alike.
* `toFloat_shortest`: the numeral that a float is written with is read as that float again.
-/

namespace Tariff.Number

variable {n k : Numeral} {b : Binary} {x : Float}

/-- The number without its sign. -/
def Numeral.abs (n : Numeral) : ℚ := n.digits * 10 ^ n.exponent

theorem Numeral.abs_nonneg (n : Numeral) : 0 ≤ n.abs := by
  unfold Numeral.abs
  positivity

theorem ofFloat_magnitude (digits : ℕ) (exponent : ℤ) :
    Shape.ofFloat (magnitude digits exponent) = nearest false (digits * 10 ^ exponent) := by
  have hexp : (if decide (exponent < 0) = true then -(exponent.natAbs : ℤ) else exponent.natAbs) =
      exponent := by
    simp only [decide_eq_true_eq]
    omega
  unfold magnitude
  rw [ofFloat_ofScientific, hexp]

/-- A numeral is read as the float nearest to its number. -/
theorem ofFloat_toFloat (n : Numeral) : Shape.ofFloat n.toFloat = nearest n.negative n.abs := by
  unfold Numeral.toFloat Numeral.abs
  cases n.negative
  · rw [if_neg (by decide), ofFloat_magnitude]
  · rw [if_pos rfl, ofFloat_neg, ofFloat_magnitude, nearest_true]

/-- Numerals of one number and sign are read alike. -/
theorem toFloat_congr (hsign : n.negative = k.negative) (habs : n.abs = k.abs) :
    n.toFloat = k.toFloat := by
  apply ofFloat_injective
  rw [ofFloat_toFloat, ofFloat_toFloat, hsign, habs]

/-- Zeros at the end of the digits count in the power of ten. -/
theorem normalized_eq (n : Numeral) :
    n.normalized.negative = n.negative ∧ n.normalized.abs = n.abs := by
  fun_induction Numeral.normalized n with
  | case1 n hzero =>
    refine ⟨rfl, ?_⟩
    unfold Numeral.abs
    simp only [hzero, Nat.cast_zero, zero_mul]
  | case2 n hne hten ih =>
    refine ⟨ih.1, ih.2.trans ?_⟩
    have hdigits : (n.digits : ℚ) = (n.digits / 10 : ℕ) * 10 := by
      exact_mod_cast (Nat.div_mul_cancel (Nat.dvd_of_mod_eq_zero hten)).symm
    unfold Numeral.abs
    dsimp only
    rw [zpow_add_one₀ (by norm_num), hdigits]
    ring
  | case3 n hne hten => exact ⟨rfl, rfl⟩

theorem exact_abs (b : Binary) : (exact b).abs = b.abs := by
  unfold Numeral.abs Binary.abs exact
  dsimp only
  push_cast
  rcases le_total 0 b.exponent with h | h
  · obtain ⟨j, hj⟩ := Int.eq_ofNat_of_zero_le h
    rw [hj]
    simp
  · obtain ⟨j, hj⟩ : ∃ j : ℕ, b.exponent = -j := ⟨b.exponent.natAbs, by omega⟩
    have hten : (10 : ℚ) ^ j = 2 ^ j * 5 ^ j := by
      rw [← mul_pow]
      norm_num
    have hnone : (-(j : ℤ)).toNat = 0 := by omega
    have hmin : min (-(j : ℤ)) 0 = -j := by omega
    rw [hj, hnone, hmin, neg_neg, Int.toNat_natCast, zpow_neg, zpow_neg, zpow_natCast, zpow_natCast,
      hten]
    field_simp

/-- The numeral that a float is written with is read as that float again. -/
theorem toFloat_shortest {tie : Tie} (hx : Shape.ofFloat x = .finite b) :
    (shortest tie x b).toFloat = x := by
  unfold shortest
  rw [toFloat_congr (normalized_eq _).1 (normalized_eq _).2]
  cases hgrid : (gridSteps b).findSome? (gridPoint tie x b) with
  | some n =>
    obtain ⟨step, -, hstep⟩ := List.exists_of_findSome?_eq_some hgrid
    exact toFloat_of_gridPoint hstep
  | none =>
    apply ofFloat_injective
    rw [Option.getD_none, ofFloat_toFloat, exact_abs, hx]
    exact nearest_abs (isFloat_of_ofFloat hx)

/-- A numeral far below the largest float is read as a finite one. -/
theorem isFinite_toFloat (h : n.abs < 2 ^ (1023 : ℤ)) : n.toFloat.isFinite = true := by
  rw [isFinite_iff, ofFloat_toFloat]
  exact ⟨_, nearest_eq_finite n.abs_nonneg h⟩

end Tariff.Number
