import Mathlib.Algebra.Order.Floor.Semifield
import Mathlib.Data.Rat.Floor
import Mathlib.Tactic.FieldSimp
import Mathlib.Tactic.Linarith
import Mathlib.Tactic.Positivity
import Mathlib.Tactic.Ring
import Tariff.Number.Rounding

/-!
# Rounding a rational number

* `halfEven`: the natural number nearest to a rational one, a tie going to the even neighbour.
* `roundDiv_toEven`: rounding a quotient of natural numbers is rounding the rational number.
* `halfEven_mono`, `halfEven_le`, `le_halfEven`: it keeps the order, and moves by at most a half.
-/

namespace Tariff.Number

/-- The natural number nearest to `q`, a tie going to the even neighbour. -/
def halfEven (q : ℚ) : ℕ :=
  if 2 * (q - ⌊q⌋₊) < 1 then ⌊q⌋₊
  else if 1 < 2 * (q - ⌊q⌋₊) then ⌊q⌋₊ + 1
  else ⌊q⌋₊ + ⌊q⌋₊ % 2

theorem roundDiv_toEven (num : ℕ) {den : ℕ} (hden : 0 < den) :
    roundDiv .toEven num den = halfEven ((num : ℚ) / den) := by
  have hd : (0 : ℚ) < den := by exact_mod_cast hden
  have hfrac : (num : ℚ) / den - (num / den : ℕ) = (num % den : ℕ) / den := by
    have h := Nat.div_add_mod num den
    have hq : (num : ℚ) = den * (num / den : ℕ) + (num % den : ℕ) := by exact_mod_cast h.symm
    rw [div_sub' hd.ne']
    congr 1
    linarith
  -- The two comparisons are those of natural numbers.
  have hlt : (2 * ((num : ℚ) / den - (num / den : ℕ)) < 1) ↔ 2 * (num % den) < den := by
    rw [hfrac, ← mul_div_assoc, div_lt_one hd]
    exact_mod_cast Iff.rfl
  have hgt : (1 < 2 * ((num : ℚ) / den - (num / den : ℕ))) ↔ den < 2 * (num % den) := by
    rw [hfrac, ← mul_div_assoc, one_lt_div hd]
    exact_mod_cast Iff.rfl
  unfold roundDiv halfEven
  simp only [Nat.floor_div_eq_div, hlt, hgt]
  rcases hc : compare (2 * (num % den)) den with _ | _ | _
  · rw [if_pos (Nat.compare_eq_lt.mp hc)]
  · have h := Nat.compare_eq_eq.mp hc
    rw [if_neg (by omega), if_neg (by omega)]
    rfl
  · have h := Nat.compare_eq_gt.mp hc
    rw [if_neg (by omega), if_pos h]

theorem floor_le_halfEven (q : ℚ) : ⌊q⌋₊ ≤ halfEven q := by
  unfold halfEven
  split_ifs <;> omega

theorem halfEven_le_floor_add_one (q : ℚ) : halfEven q ≤ ⌊q⌋₊ + 1 := by
  unfold halfEven
  split_ifs <;> omega

@[simp] theorem halfEven_natCast (n : ℕ) : halfEven n = n := by
  simp [halfEven]

theorem halfEven_mono {p q : ℚ} (h : p ≤ q) : halfEven p ≤ halfEven q := by
  rcases (Nat.floor_mono h).lt_or_eq with hlt | heq
  · -- A whole number lies between the two.
    calc halfEven p ≤ ⌊p⌋₊ + 1 := halfEven_le_floor_add_one p
      _ ≤ ⌊q⌋₊ := hlt
      _ ≤ halfEven q := floor_le_halfEven q
  · unfold halfEven
    rw [heq]
    split_ifs <;> first | omega | (exfalso; linarith)

/-- Rounding down moves by at most a half. -/
theorem le_halfEven (q : ℚ) : q - 1 / 2 ≤ halfEven q := by
  have hlt := Nat.lt_floor_add_one q
  unfold halfEven
  split_ifs <;> push_cast
  · linarith
  · linarith
  · have : (0 : ℚ) ≤ (⌊q⌋₊ % 2 : ℕ) := by positivity
    linarith

/-- Rounding up moves by at most a half. -/
theorem halfEven_le {q : ℚ} (hq : 0 ≤ q) : (halfEven q : ℚ) ≤ q + 1 / 2 := by
  have hle := Nat.floor_le hq
  unfold halfEven
  split_ifs <;> push_cast
  · linarith
  · linarith
  · have : ((⌊q⌋₊ % 2 : ℕ) : ℚ) ≤ 1 := by exact_mod_cast Nat.le_of_lt_succ (Nat.mod_lt _ two_pos)
    linarith

theorem halfEven_eq_zero {q : ℚ} (hq : 0 ≤ q) (h : q < 1 / 2) : halfEven q = 0 := by
  have hlt : (halfEven q : ℚ) < 1 := by linarith [halfEven_le hq]
  exact Nat.lt_one_iff.mp (by exact_mod_cast hlt)

end Tariff.Number
