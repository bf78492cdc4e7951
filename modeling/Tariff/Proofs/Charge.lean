import Tariff.Charge.Quota
import Tariff.Proofs.Division
import Tariff.Proofs.FromFloat

/-!
# Charging more for more tokens

Every step of a charge keeps the order of its operands, and where the larger result is in range the
smaller one is.

* `AtMost`: the order of decimals that are not negative. `ResultAtMost`: the order of results, with
  no result above all others.
* `product?_mono`, `divNat?_mono`, `total?_mono`: the steps.
* `quota_mono_in_usage`: who uses no fewer tokens pays no less.
-/

namespace Tariff

open Number Decimal

namespace Decimal

/-- The order of decimals that are not negative. -/
structure AtMost (a b : Decimal) : Prop where
  nonneg : 0 ≤ a.toRat
  le : a.toRat ≤ b.toRat

/-- The order of results that are not negative, with no result above all others. -/
structure ResultAtMost (x y : Option Decimal) : Prop where
  nonneg : 0 ≤ value x
  le : value x ≤ value y

variable {a b a' b' : Decimal} {x y x' y' : Option Decimal}

theorem AtMost.units_nonneg (h : AtMost a b) : 0 ≤ a.units := toRat_nonneg_iff.mp h.nonneg

theorem AtMost.units_nonneg' (h : AtMost a b) : 0 ≤ b.units :=
  toRat_nonneg_iff.mp (h.nonneg.trans h.le)

theorem AtMost.refl (h : 0 ≤ a.toRat) : AtMost a a := ⟨h, le_rfl⟩

theorem AtMost.result (h : AtMost a b) : ResultAtMost (some a) (some b) :=
  ⟨WithTop.coe_nonneg.mpr h.nonneg, WithTop.coe_le_coe.mpr h.le⟩

/-- Where the larger result is in range, the smaller one is. -/
theorem ResultAtMost.exists (h : ResultAtMost x (some b)) : ∃ a, x = some a ∧ AtMost a b := by
  cases x with
  | none => exact absurd h.le (not_le.mpr (WithTop.coe_lt_top _))
  | some a =>
    exact ⟨a, rfl, WithTop.coe_nonneg.mp h.nonneg, WithTop.coe_le_coe.mp h.le⟩

/-- A step that keeps the order of decimals keeps the order of results. -/
theorem ResultAtMost.bind {f g : Decimal → Option Decimal} (h : ResultAtMost x y)
    (hstep : ∀ a b, AtMost a b → ResultAtMost (f a) (g b)) : ResultAtMost (x.bind f) (y.bind g) := by
  cases y with
  | none =>
    refine ⟨?_, le_top⟩
    cases x with
    | none => exact le_top
    | some a => exact (hstep a a (.refl (WithTop.coe_nonneg.mp h.nonneg))).nonneg
  | some b =>
    obtain ⟨a, rfl, hab⟩ := h.exists
    exact hstep a b hab

/-! ## The steps -/

theorem mul?_mono (ha : AtMost a a') (hb : AtMost b b') :
    ResultAtMost (mul? a b) (mul? a' b') := by
  refine ⟨?_, ?_⟩
  · rw [value_mul? ha.units_nonneg hb.units_nonneg]
    exact rounded_nonneg
  · rw [value_mul? ha.units_nonneg hb.units_nonneg, value_mul? ha.units_nonneg' hb.units_nonneg']
    exact rounded_mono (mul_nonneg ha.nonneg hb.nonneg)
      (mul_le_mul ha.le hb.le hb.nonneg (ha.nonneg.trans ha.le))

theorem add?_mono (ha : AtMost a a') (hb : AtMost b b') :
    ResultAtMost (add? a b) (add? a' b') := by
  refine ⟨?_, ?_⟩
  · rw [value_add? ha.units_nonneg hb.units_nonneg]
    exact rounded_nonneg
  · rw [value_add? ha.units_nonneg hb.units_nonneg, value_add? ha.units_nonneg' hb.units_nonneg']
    exact rounded_mono (add_nonneg ha.nonneg hb.nonneg) (add_le_add ha.le hb.le)

theorem divNat?_mono (ha : AtMost a a') {divisor : ℕ} (hd : 0 < divisor) :
    ResultAtMost (divNat? a divisor) (divNat? a' divisor) := by
  refine ⟨?_, ?_⟩
  · rw [value_divNat? ha.units_nonneg hd]
    exact rounded_nonneg
  · rw [value_divNat? ha.units_nonneg hd, value_divNat? ha.units_nonneg' hd]
    exact rounded_mono (div_nonneg ha.nonneg (Nat.cast_nonneg divisor))
      (div_le_div_of_nonneg_right ha.le (Nat.cast_nonneg divisor))

end Decimal

open Decimal

variable {a b a' b' : Decimal} {x y x' y' : Option Decimal}

/-- A product in which each factor is at most its counterpart. -/
theorem product?_mono {factors factors' : List Decimal} (h : List.Forall₂ AtMost factors factors') :
    ResultAtMost (product? factors) (product? factors') := by
  have hfold : ∀ {a a'}, AtMost a a' →
      ResultAtMost (factors.foldlM mul? a) (factors'.foldlM mul? a') := by
    induction h with
    | nil => exact fun ha => ha.result
    | cons hb _ ih =>
      intro a a' ha
      rw [List.foldlM_cons, List.foldlM_cons]
      exact (mul?_mono ha hb).bind fun _ _ h => ih h
  exact hfold (.refl (by rw [toRat_one]; norm_num))

theorem total?_mono (hx : ResultAtMost x x') (hy : ResultAtMost y y') :
    ResultAtMost (total? x y) (total? x' y') :=
  hx.bind fun _ _ ha => hy.bind fun _ _ hb => add?_mono ha hb

/-! ## The charge -/

section Usage

variable {fewer more : TokenCounts}

theorem atMost_ofUInt64 {m n : UInt64} (h : m ≤ n) : AtMost (ofUInt64 m) (ofUInt64 n) := by
  refine ⟨?_, ?_⟩
  · rw [toRat_ofUInt64]
    exact Nat.cast_nonneg _
  · rw [toRat_ofUInt64, toRat_ofUInt64]
    exact_mod_cast UInt64.le_iff_toNat_le.mp h

theorem sideByRatio?_mono {m n : UInt64} (h : m ≤ n) {ratio : Float} (hratio : ¬ ratio < 0.0)
    {groupRatio : Decimal} (hgroup : 0 ≤ groupRatio.toRat) :
    ResultAtMost (sideByRatio? m ratio groupRatio) (sideByRatio? n ratio groupRatio) :=
  product?_mono (.cons (atMost_ofUInt64 h) (.cons (.refl (ofFloat_nonneg hratio))
    (.cons (.refl hgroup) .nil)))

theorem sideByPrice?_mono {m n : UInt64} (h : m ≤ n) {price : Float} (hprice : ¬ price < 0.0)
    {quotaPerUnit groupRatio : Decimal} (hunit : 0 ≤ quotaPerUnit.toRat)
    (hgroup : 0 ≤ groupRatio.toRat) :
    ResultAtMost (sideByPrice? m price quotaPerUnit groupRatio)
      (sideByPrice? n price quotaPerUnit groupRatio) := by
  refine (product?_mono (.cons (atMost_ofUInt64 h) (.cons (.refl (ofFloat_nonneg hprice))
    .nil))).bind fun millions millions' hmillions => ?_
  refine (divNat?_mono hmillions (by norm_num)).bind fun dollars dollars' hdollars => ?_
  exact product?_mono (.cons hdollars (.cons (.refl hunit) (.cons (.refl hgroup) .nil)))

theorem isEmpty_of_le (hi : fewer.input ≤ more.input) (ho : fewer.output ≤ more.output)
    (h : more.isEmpty = true) : fewer.isEmpty = true := by
  unfold TokenCounts.isEmpty at *
  rw [Bool.and_eq_true, beq_iff_eq, beq_iff_eq] at *
  rw [h.1] at hi
  rw [h.2] at ho
  exact ⟨UInt64.le_zero_iff.mp hi, UInt64.le_zero_iff.mp ho⟩

theorem ltOne_iff {a : Decimal} : a.ltOne = true ↔ a.toRat < 1 := by
  unfold ltOne toRat
  rw [decide_eq_true_eq, div_lt_one (by positivity)]
  exact_mod_cast Iff.rfl

/-- The minimum keeps the order: it is raised to for more tokens whenever it is for fewer. -/
theorem withMinimum_mono (hi : fewer.input ≤ more.input) (ho : fewer.output ≤ more.output)
    (h : ResultAtMost x y) {charged : Decimal} (hmore : withMinimum more y = .ok charged) :
    ∃ less, withMinimum fewer x = .ok less ∧ less.toRat ≤ charged.toRat := by
  cases y with
  | none => cases hmore
  | some b =>
    obtain ⟨a, rfl, hab⟩ := h.exists
    refine ⟨_, rfl, ?_⟩
    cases hmore
    by_cases hfewer : (!fewer.isEmpty && a.ltOne) = true
    · -- Raised for fewer tokens, so raised for more or above one.
      rw [if_pos hfewer]
      rw [Bool.and_eq_true, Bool.not_eq_true', ltOne_iff] at hfewer
      split
      · exact le_rfl
      · rename_i hmore
        rw [Bool.and_eq_true, Bool.not_eq_true', ltOne_iff, not_and, not_lt] at hmore
        rw [toRat_one]
        refine hmore (Bool.eq_false_iff.mpr fun hempty => ?_)
        rw [isEmpty_of_le hi ho hempty] at hfewer
        exact absurd hfewer.1 (by decide)
    · rw [if_neg hfewer]
      split
      · rename_i hmore
        rw [Bool.and_eq_true, ltOne_iff] at hmore
        rw [toRat_one]
        exact hab.le.trans hmore.2.le
      · exact hab.le

/-- Whatever the prices or ratios, none of them negative, who uses no more tokens on either side is
charged where the other is, and no more. -/
theorem quota_mono_in_usage (hi : fewer.input ≤ more.input) (ho : fewer.output ≤ more.output)
    {input output : Float} (hinput : ¬ input < 0.0) (houtput : ¬ output < 0.0)
    {quotaPerUnit groupRatio : Decimal} (hunit : 0 ≤ quotaPerUnit.toRat)
    (hgroup : 0 ≤ groupRatio.toRat) :
    (∀ charged, quotaByPrice more input output quotaPerUnit groupRatio = .ok charged →
      ∃ less, quotaByPrice fewer input output quotaPerUnit groupRatio = .ok less ∧
        less.toRat ≤ charged.toRat) ∧
    (∀ charged, quotaByRatio more input output groupRatio = .ok charged →
      ∃ less, quotaByRatio fewer input output groupRatio = .ok less ∧
        less.toRat ≤ charged.toRat) := by
  refine ⟨fun charged hcharged => ?_, fun charged hcharged => ?_⟩
  · have hsides := total?_mono (sideByPrice?_mono hi hinput hunit hgroup)
      (sideByPrice?_mono ho houtput hunit hgroup)
    exact withMinimum_mono hi ho hsides hcharged
  · have hsides := total?_mono (sideByRatio?_mono hi hinput hgroup)
      (sideByRatio?_mono ho houtput hgroup)
    exact withMinimum_mono hi ho hsides hcharged

/-- At two and eight dollars, a thousand tokens on each side cost no more than a million, which cost
five million units. -/
theorem thousand_tokens_cost_no_more_than_million :
    ∃ less charged, quotaByPrice ⟨1000, 1000⟩ 2.0 8.0 (ofUInt64 500000) one = .ok less ∧
      quotaByPrice ⟨1000000, 1000000⟩ 2.0 8.0 (ofUInt64 500000) one = .ok charged ∧
      charged.units = 5000000 ∧ less.toRat ≤ charged.toRat := by
  have hunits : (quotaByPrice ⟨1000000, 1000000⟩ 2.0 8.0 (ofUInt64 500000) one).toOption.map
      (·.units) = some 5000000 := by decide +kernel
  cases hcharged : quotaByPrice ⟨1000000, 1000000⟩ 2.0 8.0 (ofUInt64 500000) one with
  | error fault =>
    rw [hcharged] at hunits
    cases hunits
  | ok charged =>
    rw [hcharged] at hunits
    have hfewer : (1000 : UInt64) ≤ 1000000 := by decide
    have hone : 0 ≤ one.toRat := toRat_nonneg_iff.mpr (by decide)
    have hunit : 0 ≤ (ofUInt64 500000).toRat := toRat_nonneg_iff.mpr (by decide)
    obtain ⟨less, hless, hle⟩ := (@quota_mono_in_usage ⟨1000, 1000⟩ ⟨1000000, 1000000⟩ hfewer hfewer
      2.0 8.0 (by decide) (by decide) _ _ hunit hone).1 charged hcharged
    exact ⟨less, charged, hless, rfl, Option.some.inj hunits, hle⟩

end Usage

end Tariff
