import Tariff.Proofs.Decimal
import Tariff.Proofs.Search

/-!
# Operations on decimals as roundings

Between decimals that are not negative, each operation is the exact one and then one rounding. Signs
are left aside by all operations until the last step.

* `withSign`: a magnitude with a sign, as a number.
* `value_fit?`: what the common last step comes to.
* `value_mul?`, `value_add?`: the operations. Division is a module of its own.
-/

namespace Tariff.Decimal

open Number

variable {a b : Decimal}

theorem toRat_nonneg_iff : 0 ≤ a.toRat ↔ 0 ≤ a.units := by
  unfold toRat
  rw [le_div_iff₀ (by positivity), zero_mul]
  exact_mod_cast Iff.rfl

theorem toRat_eq_zero (h : a.units = 0) : a.toRat = 0 := by
  rw [toRat, h, Int.cast_zero, zero_div]

theorem units_eq_magnitude (ha : 0 ≤ a.units) : a.units = (a.magnitude : ℤ) :=
  (Int.natAbs_of_nonneg ha).symm

theorem toRat_eq_magnitude (ha : 0 ≤ a.units) : a.toRat = (a.magnitude : ℚ) / 10 ^ a.scale := by
  unfold toRat
  rw [units_eq_magnitude ha, Int.cast_natCast]

theorem abs_toRat (a : Decimal) : |a.toRat| = (a.magnitude : ℚ) / 10 ^ a.scale := by
  unfold toRat magnitude
  rw [abs_div, Nat.cast_natAbs, Int.cast_abs, abs_of_pos (by positivity : (0 : ℚ) < 10 ^ a.scale)]

/-- A magnitude with a sign. -/
def withSign (negative : Bool) (q : ℚ) : ℚ :=
  if negative then -q else q

theorem cast_signed (negative : Bool) (magnitude : ℕ) :
    (signed negative magnitude : ℚ) = withSign negative magnitude := by
  cases negative <;> simp [signed, withSign]

theorem withSign_div (negative : Bool) (q r : ℚ) :
    withSign negative q / r = withSign negative (q / r) := by
  cases negative
  · rfl
  · exact neg_div r q

theorem withSign_mul (negative negative' : Bool) (q r : ℚ) :
    withSign (negative != negative') (q * r) = withSign negative q * withSign negative' r := by
  cases negative <;> cases negative' <;> simp [withSign]

theorem withSign_abs {negative : Bool} {q : ℚ} (h : negative = decide (q < 0)) :
    withSign negative |q| = q := by
  subst h
  unfold withSign
  by_cases hq : q < 0
  · rw [if_pos (decide_eq_true hq), abs_of_neg hq, neg_neg]
  · rw [if_neg (by simpa using hq), abs_of_nonneg (not_lt.mp hq)]

theorem toRat_neg_iff : a.toRat < 0 ↔ a.units < 0 := by
  rw [← not_le, toRat_nonneg_iff, not_le]

theorem isNegative_eq (a : Decimal) : a.isNegative = decide (a.toRat < 0) :=
  decide_eq_decide.mpr toRat_neg_iff.symm

/-- A decimal is its magnitude with its sign. -/
theorem withSign_abs_toRat (a : Decimal) : withSign a.isNegative |a.toRat| = a.toRat :=
  withSign_abs a.isNegative_eq

theorem isNegative_of_nonneg (ha : 0 ≤ a.units) : a.isNegative = false :=
  decide_eq_false (not_lt.mpr ha)

@[simp] theorem value_none : value none = ⊤ := rfl

@[simp] theorem value_some (a : Decimal) : value (some a) = (a.toRat : ℚ) := rfl

@[simp] theorem toRat_zero : zero.toRat = 0 := by simp [toRat, zero]

@[simp] theorem toRat_one : one.toRat = 1 := by simp [toRat, one]

@[simp] theorem toRat_ofUInt64 (n : UInt64) : (ofUInt64 n).toRat = n.toNat := by
  simp [toRat, ofUInt64]

/-- A decimal that is not negative stays as it is when rounded. -/
theorem rounded_toRat (ha : 0 ≤ a.units) : rounded a.toRat = (a.toRat : ℚ) := by
  rw [toRat_eq_magnitude ha]
  exact rounded_of_exact a.units_lt a.scale_le

/-! ## The common last step -/

theorem mem_drops {scale k : ℕ} : k ∈ drops scale ↔ k ≤ scale ∧ scale - k ≤ maxScale := by
  unfold drops
  rw [List.mem_filter, List.mem_range, decide_eq_true_eq]
  omega

theorem drops_pairwise (scale : ℕ) : (drops scale).Pairwise (· < ·) :=
  List.pairwise_lt_range.filter _

theorem make?_eq_some_iff {negative : Bool} {units scale : ℕ} {d : Decimal} :
    make? negative units scale = some d ↔
      units < unitLimit ∧ scale ≤ maxScale ∧ d.units = signed negative units ∧ d.scale = scale := by
  obtain ⟨u, s, hu, hs⟩ := d
  unfold make?
  split
  · rename_i h
    rw [Option.some.injEq, Decimal.mk.injEq]
    exact ⟨fun ⟨hu, hs⟩ => ⟨h.1, h.2, hu.symm, hs.symm⟩, fun ⟨_, _, hu, hs⟩ => ⟨hu.symm, hs.symm⟩⟩
  · rename_i h
    exact ⟨fun hn => by simp at hn, fun ⟨hu, hs, _⟩ => absurd ⟨hu, hs⟩ h⟩

theorem make?_eq_none_iff {negative : Bool} {units scale : ℕ} :
    make? negative units scale = none ↔ ¬ (units < unitLimit ∧ scale ≤ maxScale) := by
  unfold make?
  split <;> simp_all

/-- A quotient with `k` places dropped is the number it stands for with the places that are left. -/
theorem roundDiv_drop (num : ℕ) {den scale k : ℕ} (hden : 0 < den) (hk : k ≤ scale) :
    roundDiv .toEven num (den * 10 ^ k) =
      halfEven ((num : ℚ) / (den * 10 ^ scale) * 10 ^ (scale - k)) := by
  have hd : (den : ℚ) ≠ 0 := by exact_mod_cast hden.ne'
  have hpow : (10 : ℚ) ^ scale = 10 ^ k * 10 ^ (scale - k) := by
    rw [← pow_add, Nat.add_sub_cancel' hk]
  have hq : (num : ℚ) / (den * 10 ^ k : ℕ) = num / (den * 10 ^ scale) * 10 ^ (scale - k) := by
    rw [hpow]
    push_cast
    field_simp
  rw [roundDiv_toEven num (by positivity), hq]

/-- The last step keeps the most places that fit, of those that there are. -/
theorem fit?_eq_some {negative : Bool} {num den scale : ℕ} {d : Decimal} (hden : 0 < den)
    (h : fit? negative num den scale = some d) :
    Fits ((num : ℚ) / (den * 10 ^ scale)) d.scale ∧
      d.units = signed negative (halfEven ((num : ℚ) / (den * 10 ^ scale) * 10 ^ d.scale)) ∧
      (d.scale = scale ∨ d.scale = maxScale ∨
        ¬ Fits ((num : ℚ) / (den * 10 ^ scale)) (d.scale + 1)) := by
  obtain ⟨k, hmem, hk, hfewer⟩ :=
    findSome?_eq_some_of_pairwise (fun h => Nat.lt_asymm h) (drops_pairwise scale) h
  obtain ⟨hle, hmax⟩ := mem_drops.mp hmem
  rw [roundDiv_drop num hden hle, make?_eq_some_iff] at hk
  obtain ⟨hfits, -, hunits, hscale⟩ := hk
  rw [hscale]
  refine ⟨hfits, hunits, ?_⟩
  by_cases hprev : 0 < k ∧ k - 1 ∈ drops scale
  · -- One place more was tried before.
    obtain ⟨hpos, hprev⟩ := hprev
    obtain ⟨hle', hmax'⟩ := mem_drops.mp hprev
    have hnone := hfewer _ hprev (by omega)
    rw [roundDiv_drop num hden hle', make?_eq_none_iff,
      show scale - (k - 1) = scale - k + 1 by omega] at hnone
    exact .inr (.inr fun hmore => hnone ⟨hmore, by omega⟩)
  · rw [mem_drops] at hprev
    omega

theorem fit?_eq_none {negative : Bool} {num den scale : ℕ} (hden : 0 < den)
    (h : fit? negative num den scale = none) : ¬ Fits ((num : ℚ) / (den * 10 ^ scale)) 0 := by
  have hmem : scale ∈ drops scale := mem_drops.mpr (by omega)
  have hnone := List.findSome?_eq_none_iff.mp h scale hmem
  rw [roundDiv_drop num hden le_rfl, make?_eq_none_iff, Nat.sub_self] at hnone
  exact fun hfits => hnone ⟨hfits, Nat.zero_le _⟩

/-- Where a result needs no more than `scale` places, or where no more fit, the last step rounds
its magnitude with as many places as fit. -/
theorem rounded_of_fit? {negative : Bool} {num den scale : ℕ} {d : Decimal} (hden : 0 < den)
    (hexact : maxScale ≤ scale ∨ ¬ Fits ((num : ℚ) / (den * 10 ^ scale)) (scale + 1) ∨ den ∣ num)
    (h : fit? negative num den scale = some d) :
    ∃ magnitude : ℚ, rounded ((num : ℚ) / (den * 10 ^ scale)) = magnitude ∧
      d.toRat = withSign negative magnitude := by
  have hq : (0 : ℚ) ≤ (num : ℚ) / (den * 10 ^ scale) := by positivity
  obtain ⟨hfits, hunits, hmost⟩ := fit?_eq_some hden h
  refine ⟨_, rounded_eq hq d.scale_le hfits ?_, ?_⟩
  · rcases hmost with heq | heq | hno
    · rw [heq]
      have hle := d.scale_le
      refine hexact.imp (fun hmax => by omega) (Or.imp_right fun ⟨c, hc⟩ => ⟨c, ?_⟩)
      rw [hc]
      push_cast
      field_simp
    · exact .inl heq
    · exact .inr (.inl hno)
  · rw [toRat, hunits, cast_signed, withSign_div]

/-- Without a sign, the last step is a rounding. -/
theorem value_fit? (num : ℕ) {den scale : ℕ} (hden : 0 < den)
    (hexact : maxScale ≤ scale ∨ ¬ Fits ((num : ℚ) / (den * 10 ^ scale)) (scale + 1) ∨ den ∣ num) :
    value (fit? false num den scale) = rounded ((num : ℚ) / (den * 10 ^ scale)) := by
  cases hfit : fit? false num den scale with
  | none =>
    unfold rounded
    rw [if_neg (fit?_eq_none hden hfit), value_none]
  | some d =>
    obtain ⟨magnitude, hrounded, hd⟩ := rounded_of_fit? hden hexact hfit
    rw [hrounded, value_some, hd]
    rfl

/-! ## Multiplication and addition -/

/-- The magnitude of the exact product in units of its last place. -/
theorem abs_toRat_mul (a b : Decimal) :
    |a.toRat * b.toRat| =
      ((a.magnitude * b.magnitude : ℕ) : ℚ) / ((1 : ℕ) * 10 ^ (a.scale + b.scale)) := by
  rw [abs_mul, abs_toRat, abs_toRat, div_mul_div_comm, ← pow_add]
  push_cast
  rw [one_mul]

/-- A product that counts as zero is rounded to zero. -/
theorem rounded_of_vanishes (h : a.vanishes b = true) :
    rounded |a.toRat * b.toRat| = (0 : ℚ) := by
  unfold vanishes at h
  simp only [Bool.and_eq_true, decide_eq_true_eq] at h
  obtain ⟨⟨ha', hb'⟩, hscale⟩ := h
  have hsmall : |a.toRat * b.toRat| * 10 ^ maxScale < 1 / 2 := by
    have hprod : ((a.magnitude * b.magnitude : ℕ) : ℚ) ≤ 2 ^ 64 := by
      exact_mod_cast (Nat.mul_le_mul ha'.le hb'.le).trans (by norm_num)
    have hpow : (10 : ℚ) ^ 48 ≤ 10 ^ (a.scale + b.scale) := pow_le_pow_right₀ (by norm_num) hscale
    rw [abs_toRat_mul, Nat.cast_one, one_mul, div_mul_eq_mul_div, div_lt_iff₀ (by positivity)]
    norm_num [maxScale] at *
    linarith
  have hzero := halfEven_eq_zero (by positivity) hsmall
  have hfits : Fits |a.toRat * b.toRat| maxScale := by
    unfold Fits
    rw [hzero]
    decide
  rw [rounded_eq (abs_nonneg _) le_rfl hfits (.inl rfl), hzero]
  simp

theorem value_mul? (ha : 0 ≤ a.units) (hb : 0 ≤ b.units) :
    value (mul? a b) = rounded (a.toRat * b.toRat) := by
  have habs : |a.toRat * b.toRat| = a.toRat * b.toRat :=
    abs_of_nonneg (mul_nonneg (toRat_nonneg_iff.mpr ha) (toRat_nonneg_iff.mpr hb))
  unfold mul?
  split
  · rename_i h
    rw [value_some, toRat_zero]
    rcases h with h | h | h
    · rw [toRat_eq_zero h, zero_mul, rounded_zero]
    · rw [toRat_eq_zero h, mul_zero, rounded_zero]
    · rw [← habs, rounded_of_vanishes h]
  · rw [isNegative_of_nonneg ha, isNegative_of_nonneg hb, ← habs, abs_toRat_mul]
    exact value_fit? _ one_pos (.inr (.inr (one_dvd _)))

theorem unitsAt_eq {scale : ℕ} (h : a.scale ≤ scale) :
    (a.unitsAt scale : ℚ) = a.toRat * 10 ^ scale := by
  unfold unitsAt toRat
  push_cast
  rw [← Nat.add_sub_cancel' h, pow_add]
  field_simp
  simp

/-- The exact sum in units of its last place. -/
theorem toRat_add (a b : Decimal) :
    a.toRat + b.toRat = ((a.unitsAt (max a.scale b.scale) + b.unitsAt (max a.scale b.scale) : ℤ) : ℚ) /
      10 ^ max a.scale b.scale := by
  rw [Int.cast_add, unitsAt_eq (le_max_left _ _), unitsAt_eq (le_max_right _ _)]
  field_simp

/-- The magnitude of the exact sum in units of its last place. -/
theorem abs_toRat_add (a b : Decimal) :
    |a.toRat + b.toRat| =
      ((a.unitsAt (max a.scale b.scale) + b.unitsAt (max a.scale b.scale)).natAbs : ℚ) /
        ((1 : ℕ) * 10 ^ max a.scale b.scale) := by
  rw [toRat_add, abs_div, abs_of_pos (by positivity : (0 : ℚ) < 10 ^ max a.scale b.scale),
    Nat.cast_natAbs, Int.cast_abs, Nat.cast_one, one_mul]

theorem value_add? (ha : 0 ≤ a.units) (hb : 0 ≤ b.units) :
    value (add? a b) = rounded (a.toRat + b.toRat) := by
  have habs : |a.toRat + b.toRat| = a.toRat + b.toRat :=
    abs_of_nonneg (add_nonneg (toRat_nonneg_iff.mpr ha) (toRat_nonneg_iff.mpr hb))
  unfold add?
  split
  · rename_i h
    rw [toRat_eq_zero h, zero_add, rounded_toRat hb, value_some]
  · split
    · rename_i h
      rw [toRat_eq_zero h, add_zero, rounded_toRat ha, value_some]
    · have hsum : 0 ≤ a.unitsAt (max a.scale b.scale) + b.unitsAt (max a.scale b.scale) := by
        unfold unitsAt
        positivity
      rw [← habs, abs_toRat_add]
      simp only [decide_eq_false (not_lt.mpr hsum)]
      exact value_fit? _ one_pos (.inr (.inr (one_dvd _)))

end Tariff.Decimal
