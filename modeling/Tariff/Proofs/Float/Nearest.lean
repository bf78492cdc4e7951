import Tariff.Proofs.Float.Shape
import Tariff.Proofs.Rounding

/-!
# The float nearest to a number

* `Binary.abs`: the number of a float without its sign.
* `gridExponent`: the power of two that the floats around a number are multiples of.
* `nearest`: the float nearest to a number, a tie going to the even significand.
* `nearest_abs`: a float is the one nearest to its own number.
* `nearest_of_large`, `nearest_of_small`: beyond the range of floats.
-/

namespace Tariff.Number

variable {v : ℚ} {negative : Bool}

/-- The number without its sign. -/
def Binary.abs (b : Binary) : ℚ := b.significand * 2 ^ b.exponent

/-- The floats around `v` are multiples of this power of two. -/
def gridExponent (v : ℚ) : ℤ := if v = 0 then -1074 else max (Int.log 2 v - 52) (-1074)

/-- The significand of `v` on its grid. -/
def gridUnits (v : ℚ) : ℕ := halfEven (v / 2 ^ gridExponent v)

/-- `units` of a grid as a number; a significand that rounding made too long is halved. -/
def settled (negative : Bool) (units : ℕ) (exponent : ℤ) : Binary :=
  if units = 2 ^ 53 then ⟨negative, 2 ^ 52, exponent + 1⟩ else ⟨negative, units, exponent⟩

/-- The float nearest to a number `v` that is not negative, with a sign; infinite where the number is
too large. -/
def nearest (negative : Bool) (v : ℚ) : Shape :=
  let b := settled negative (gridUnits v) (gridExponent v)
  if b.exponent ≤ 971 then .finite b else .infinity negative

/-- The number of a float in units of a power of ten. -/
theorem Binary.abs_mul_zpow (b : Binary) (tens : ℤ) :
    b.abs * 10 ^ tens = (b.scaled tens).1 / (b.scaled tens).2 := by
  have hpow (c : ℚ) (hc : c ≠ 0) (k : ℤ) : c ^ k = c ^ k.toNat / c ^ (-k).toNat := by
    rw [eq_div_iff (pow_ne_zero _ hc), ← zpow_natCast, ← zpow_natCast, ← zpow_add₀ hc]
    congr 1
    omega
  unfold Binary.abs Binary.scaled
  rw [hpow 2 (by norm_num), hpow 10 (by norm_num)]
  push_cast
  field_simp

/-! ## The grid -/

theorem le_gridExponent : -1074 ≤ gridExponent v := by
  unfold gridExponent
  split
  · exact le_rfl
  · exact le_max_right _ _

theorem log_eq_of_le_of_lt {k : ℤ} (h : (2 : ℚ) ^ k ≤ v) (h' : v < 2 ^ (k + 1)) : Int.log 2 v = k := by
  have hv : 0 < v := lt_of_lt_of_le (by positivity) h
  have hle : k ≤ Int.log 2 v := (Int.zpow_le_iff_le_log (by norm_num) hv).mp (by exact_mod_cast h)
  have hlt : Int.log 2 v < k + 1 := (Int.lt_zpow_iff_log_lt (by norm_num) hv).mp (by exact_mod_cast h')
  omega

theorem gridExponent_of_lt (hv : 0 ≤ v) (h : v < 2 ^ (-1022 : ℤ)) : gridExponent v = -1074 := by
  unfold gridExponent
  split
  · rfl
  · rename_i hne
    have hpos : 0 < v := lt_of_le_of_ne hv (Ne.symm hne)
    have hlog : Int.log 2 v < -1022 :=
      (Int.lt_zpow_iff_log_lt (by norm_num) hpos).mp (by exact_mod_cast h)
    omega

/-- The grid of a number whose whole part in units of `2 ^ e` is `m`. -/
theorem gridExponent_eq {m : ℕ} {e : ℤ} (hm : 0 < m) (h : m * 2 ^ e ≤ v) (h' : v < (m + 1) * 2 ^ e) :
    gridExponent v = max (m.log2 + e - 52) (-1074) := by
  have hpow : (0 : ℚ) < 2 ^ e := by positivity
  have hv : v ≠ 0 := (lt_of_lt_of_le (by positivity) h).ne'
  have hlog : Int.log 2 v = m.log2 + e := by
    have hself : 2 ^ m.log2 ≤ m := Nat.log2_self_le hm.ne'
    have hlt : m + 1 ≤ 2 ^ (m.log2 + 1) := Nat.lt_log2_self
    apply log_eq_of_le_of_lt
    · calc (2 : ℚ) ^ ((m.log2 : ℤ) + e) = (2 ^ m.log2 : ℕ) * 2 ^ e := by
            rw [zpow_add₀ (by norm_num), zpow_natCast, Nat.cast_pow, Nat.cast_ofNat]
        _ ≤ m * 2 ^ e := by gcongr
        _ ≤ v := h
    · calc v < (m + 1) * 2 ^ e := h'
        _ ≤ (2 ^ (m.log2 + 1) : ℕ) * 2 ^ e := by
            gcongr
            exact_mod_cast hlt
        _ = (2 : ℚ) ^ ((m.log2 : ℤ) + e + 1) := by
            rw [show (m.log2 : ℤ) + e + 1 = ((m.log2 + 1 : ℕ) : ℤ) + e by push_cast; ring,
              zpow_add₀ (by norm_num), zpow_natCast, Nat.cast_pow, Nat.cast_ofNat]
  unfold gridExponent
  rw [if_neg hv, hlog]

theorem le_gridExponent_of_le {k : ℤ} (h : 2 ^ k ≤ v) : max (k - 52) (-1074) ≤ gridExponent v := by
  have hv : 0 < v := lt_of_lt_of_le (by positivity) h
  have hlog : k ≤ Int.log 2 v := (Int.zpow_le_iff_le_log (by norm_num) hv).mp (by exact_mod_cast h)
  unfold gridExponent
  rw [if_neg hv.ne']
  omega

/-- Above the least exponent, a number has at least 53 bits on its grid. -/
theorem le_div_gridExponent (hv : 0 ≤ v) (h : gridExponent v ≠ -1074) :
    2 ^ 52 ≤ v / 2 ^ gridExponent v := by
  have hne : v ≠ 0 := by
    rintro rfl
    exact h (if_pos rfl)
  have hgrid : gridExponent v = Int.log 2 v - 52 := by
    unfold gridExponent at *
    rw [if_neg hne] at *
    omega
  have hlog := Int.zpow_log_le_self (b := 2) (by norm_num) (lt_of_le_of_ne hv hne.symm)
  rw [le_div_iff₀ (by positivity), hgrid]
  calc (2 : ℚ) ^ 52 * 2 ^ (Int.log 2 v - 52) = 2 ^ Int.log 2 v := by
        rw [← zpow_natCast, ← zpow_add₀ (by norm_num)]
        congr 1
        push_cast
        ring
    _ ≤ v := by exact_mod_cast hlog

theorem div_gridExponent_lt (hv : 0 ≤ v) : v / 2 ^ gridExponent v < 2 ^ 53 := by
  rcases hv.eq_or_lt with rfl | hv
  · norm_num
  · have hlog := Int.lt_zpow_succ_log_self (b := 2) (by norm_num) v
    have hle : Int.log 2 v - 52 ≤ gridExponent v := by
      unfold gridExponent
      rw [if_neg hv.ne']
      exact le_max_left _ _
    rw [div_lt_iff₀ (by positivity)]
    calc v < (2 : ℚ) ^ (Int.log 2 v + 1) := by exact_mod_cast hlog
      _ = 2 ^ 53 * 2 ^ (Int.log 2 v - 52) := by
          rw [← zpow_natCast, ← zpow_add₀ (by norm_num)]
          congr 1
          push_cast
          ring
      _ ≤ 2 ^ 53 * 2 ^ gridExponent v := by
          gcongr
          norm_num

theorem gridUnits_le (hv : 0 ≤ v) : gridUnits v ≤ 2 ^ 53 := by
  have h := halfEven_mono (div_gridExponent_lt hv).le
  rw [show (2 : ℚ) ^ 53 = (2 ^ 53 : ℕ) by norm_num, halfEven_natCast] at h
  exact h

theorem le_gridUnits (hv : 0 ≤ v) (h : gridExponent v ≠ -1074) : 2 ^ 52 ≤ gridUnits v := by
  have h := halfEven_mono (le_div_gridExponent hv h)
  rw [show (2 : ℚ) ^ 52 = (2 ^ 52 : ℕ) by norm_num, halfEven_natCast] at h
  exact h

theorem settled_eq_mk (negative : Bool) (units : ℕ) (exponent : ℤ) :
    (⟨negative, (settled negative units exponent).significand,
      (settled negative units exponent).exponent⟩ : Binary) = settled negative units exponent := by
  unfold settled
  split <;> rfl

/-- What is settled on has the form of a float, but for a greatest exponent. -/
theorem settled_bounds (negative : Bool) (hv : 0 ≤ v) :
    let b := settled negative (gridUnits v) (gridExponent v)
    b.significand < 2 ^ 53 ∧ -1074 ≤ b.exponent ∧ (2 ^ 52 ≤ b.significand ∨ b.exponent = -1074) := by
  have hle := gridUnits_le hv
  have hexp : -1074 ≤ gridExponent v := le_gridExponent
  have hnormal : 2 ^ 52 ≤ gridUnits v ∨ gridExponent v = -1074 :=
    or_iff_not_imp_right.mpr (le_gridUnits hv)
  intro b
  by_cases hlong : gridUnits v = 2 ^ 53
  · rw [show b = ⟨negative, 2 ^ 52, gridExponent v + 1⟩ from if_pos hlong]
    exact ⟨by norm_num, hexp.trans (lt_add_one _).le, .inl le_rfl⟩
  · rw [show b = ⟨negative, gridUnits v, gridExponent v⟩ from if_neg hlong]
    exact ⟨lt_of_le_of_ne hle hlong, hexp, hnormal⟩

/-! ## Floats themselves, and what is beyond them -/

/-- A float is the one nearest to its own number. -/
theorem nearest_abs {b : Binary} (h : b.IsFloat) : nearest b.negative b.abs = .finite b := by
  have hpow : (0 : ℚ) < 2 ^ b.exponent := by positivity
  have hgrid : gridExponent b.abs = b.exponent := by
    rcases Nat.eq_zero_or_pos b.significand with hzero | hpos
    · have habs : b.abs = 0 := by
        unfold Binary.abs
        rw [hzero, Nat.cast_zero, zero_mul]
      unfold gridExponent
      rw [if_pos habs]
      exact (h.normal.resolve_left (by omega)).symm
    · have hlt : b.abs < (b.significand + 1) * 2 ^ b.exponent := by
        unfold Binary.abs
        gcongr
        linarith
      rw [gridExponent_eq (v := b.abs) hpos le_rfl hlt]
      have hlog := (Nat.log2_lt hpos.ne').mpr h.significand_lt
      rcases h.normal with hnormal | hleast
      · have hlog' := (Nat.le_log2 hpos.ne').mpr hnormal
        have := h.le_exponent
        omega
      · omega
  have hunits : gridUnits b.abs = b.significand := by
    unfold gridUnits
    rw [hgrid, Binary.abs, mul_div_cancel_right₀ _ hpow.ne', halfEven_natCast]
  have hsettled : settled b.negative b.significand b.exponent = b := by
    unfold settled
    rw [if_neg h.significand_lt.ne]
  unfold nearest
  simp only [hgrid, hunits, hsettled]
  rw [if_pos h.exponent_le]

theorem exponent_settled_of_lt {units : ℕ} {exponent : ℤ} (h : 971 < exponent) :
    971 < (settled negative units exponent).exponent := by
  unfold settled
  split
  · exact h.trans (lt_add_one exponent)
  · exact h

/-- From twice the largest power of two on, no float is near. -/
theorem nearest_of_large (h : 2 ^ (1024 : ℤ) ≤ v) : nearest negative v = .infinity negative := by
  have hv : 0 < v := lt_of_lt_of_le (by positivity) h
  have hlog : 1024 ≤ Int.log 2 v := (Int.zpow_le_iff_le_log (by norm_num) hv).mp (by exact_mod_cast h)
  have hgrid : 971 < gridExponent v := by
    unfold gridExponent
    rw [if_neg hv.ne']
    omega
  unfold nearest
  exact if_neg (not_le.mpr (exponent_settled_of_lt hgrid))

/-- Below half of the least float, zero is nearest. -/
theorem nearest_of_small (hv : 0 ≤ v) (h : v < 2 ^ (-1075 : ℤ)) :
    nearest negative v = .finite ⟨negative, 0, -1074⟩ := by
  have hgrid : gridExponent v = -1074 :=
    gridExponent_of_lt hv (h.trans (zpow_lt_zpow_right₀ (by norm_num) (by norm_num)))
  have hunits : gridUnits v = 0 := by
    refine halfEven_eq_zero (by positivity) ?_
    rw [hgrid, div_lt_iff₀ (by positivity)]
    calc v < 2 ^ (-1075 : ℤ) := h
      _ = 1 / 2 * 2 ^ (-1074 : ℤ) := by
          rw [show (-1075 : ℤ) = -1 + -1074 by norm_num, zpow_add₀ (by norm_num)]
          norm_num
  unfold nearest settled
  rw [hgrid, hunits]
  rfl

theorem nearest_zero : nearest negative 0 = .finite ⟨negative, 0, -1074⟩ :=
  nearest_of_small le_rfl (by positivity)

/-- Below the largest power of two, the nearest float is finite. -/
theorem nearest_eq_finite (hv : 0 ≤ v) (h : v < 2 ^ (1023 : ℤ)) :
    nearest negative v = .finite (settled negative (gridUnits v) (gridExponent v)) := by
  have hgrid : gridExponent v ≤ 970 := by
    unfold gridExponent
    split
    · norm_num
    · rename_i hne
      have hpos : 0 < v := lt_of_le_of_ne hv (Ne.symm hne)
      have hlog : Int.log 2 v < 1023 :=
        (Int.lt_zpow_iff_log_lt (by norm_num) hpos).mp (by exact_mod_cast h)
      omega
  unfold nearest
  refine if_pos ?_
  unfold settled
  split
  · exact add_le_add_left hgrid 1
  · exact hgrid.trans (by norm_num)

/-- The sign plays no part in rounding. -/
theorem nearest_true : nearest true v = (nearest false v).negated := by
  unfold nearest settled
  dsimp only
  split_ifs <;> rfl

end Tariff.Number
