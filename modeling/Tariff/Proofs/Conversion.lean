import Tariff.Command.Prices
import Tariff.Proofs.Idle
import Tariff.Proofs.Reload

/-!
# Prices converted and prices kept

A conversion and a draft both turn two prices into ratios. A draft sets an input price of zero apart
before it divides, a conversion divides all the same; each has its own rule for when there is a
completion ratio. They come to equal ratios.

* `zero_lt_or_beq_zero`: a size is above zero, or a zero of either sign.
* `quotient_beq_zero`: a zero of either sign stays one, whatever it is divided by.
* `completionRatio_ofPrice`: both rules for a completion ratio are the same.
* `Conversion.AgreesWith`: pricing at the ratios of a conversion.
* `prices_convert_as_drafts_keep_them`: the prices of a draft that are kept as ratios are kept at
  those that they are converted to.
-/

namespace Tariff

open Number Text

/-! ## Zeros -/

variable {x y input output : Float} {basis : Basis}

/-- A size is above zero, or a zero of either sign. -/
theorem zero_lt_or_beq_zero (h : IsSize x) : 0.0 < x ∨ (x == 0.0) = true := by
  obtain ⟨b, hb, -, hsign⟩ := exists_of_isAmount (isAmount_iff_isSize.mpr h)
  by_cases hzero : b.significand = 0
  · exact .inr ((beq_zero_iff hb).mpr hzero)
  · exact .inl (zero_lt_of_not_negative hb (hsign.resolve_right hzero) hzero)

/-- A zero over a number that is none is a zero. -/
theorem div_beq_zero (hx : (x == 0.0) = true) (hfinite : y.isFinite = true)
    (hy : (y == 0.0) = false) : (x / y == 0.0) = true := by
  obtain ⟨a, ha⟩ := isFinite_iff.mp (isFinite_of_beq_zero hx)
  obtain ⟨b, hb⟩ := isFinite_iff.mp hfinite
  have hne : b.significand ≠ 0 := by
    intro hzero
    rw [(beq_zero_iff hb).mpr hzero] at hy
    cases hy
  have hdiv : Shape.ofFloat (x / y) = .finite ⟨a.negative != b.negative, 0, -1074⟩ := by
    rw [ofFloat_div ha hb hne, Binary.abs_eq_zero ((beq_zero_iff ha).mp hx), zero_div, nearest_zero]
  exact (beq_zero_iff hdiv).mpr rfl

/-- Over whatever number, a zero is a zero. -/
theorem quotient_beq_zero (h : (x == 0.0) = true) (y : Float) : (quotient x y == 0.0) = true := by
  unfold quotient
  split
  · decide
  · rename_i hy
    rw [Bool.or_eq_true, not_or, Bool.not_eq_true, Bool.not_eq_true', Bool.not_eq_false] at hy
    dsimp only
    split
    · exact div_beq_zero h hy.2 hy.1
    · decide

/-! ## Ratios -/

theorem beq_self_of_isFinite (h : x.isFinite = true) : (x == x) = true := by
  refine Float.beq_self_iff.mpr ?_
  rintro rfl
  cases h

/-- The ratio of a size is the one that it is kept at, as far as floats can be told apart. -/
theorem ratioOfPrice_beq_kept (h : IsSize input) :
    (basis.ratioOfPrice input == if input > 0.0 then basis.ratioOfPrice input else 0.0) = true := by
  rcases zero_lt_or_beq_zero h with hpos | hzero
  · rw [if_pos hpos]
    exact beq_self_of_isFinite (isFinite_quotient _ _)
  · split
    · exact beq_self_of_isFinite (isFinite_quotient _ _)
    · exact quotient_beq_zero hzero _

theorem isFinite_completionKept (input output : Float) :
    (completionKept input output).isFinite = true := by
  unfold completionKept
  split
  · exact isFinite_quotient _ _
  · exact isFinite_one

/-- The pricing is at ratios equal to those of the conversion, and the output costs what they come
to. -/
def Conversion.AgreesWith (c : Conversion) (pricing : Pricing) : Prop :=
  ∃ input completion, pricing = .ratio input completion none ∧
    (c.inputRatio == input) = true ∧ (c.completionRatio == completion) = true

/-- A conversion has a completion ratio of its own for the prices for which a draft has, and it is
the same. -/
theorem completionRatio_ofPrice (basis : Basis) (input output : Float) :
    (Conversion.ofPrice basis input (some output)).completionRatio =
      completionKept input output := by
  unfold Conversion.ofPrice completionKept
  rfl

theorem agreesWith_ofPrice (h : IsSize input) :
    (Conversion.ofPrice basis input (some output)).AgreesWith
      (DraftPricing.pricing basis (.price input output true)) := by
  refine ⟨_, _, rfl, ratioOfPrice_beq_kept h, ?_⟩
  rw [completionRatio_ofPrice]
  exact beq_self_of_isFinite (isFinite_completionKept input output)

theorem conversion_ofPrice (hinput : IsSize input) (houtput : IsSize output) :
    Context.conversion basis (.ofPrice input (some output)) =
      .ok (.ofPrice basis input (some output)) := by
  have hpass (label : String) {x : Float} (h : IsSize x) : Context.checkAmount label x = .ok () :=
    if_pos (isAmount_iff_isSize.mpr h)
  exact bind_eq_ok_iff.mpr ⟨(), hpass "input price" hinput,
    bind_eq_ok_iff.mpr ⟨(), hpass "output price" houtput, rfl⟩⟩

/-- Two sizes that are given to the converter as prices and entered in a draft to be kept as ratios:
the draft is kept, if it has a name and its bounds have no fault, at the ratios that the prices are
converted to. -/
theorem prices_convert_as_drafts_keep_them (basis : Basis) (draft : RuleDraft)
    (hinput : IsSize input) (houtput : IsSize output)
    (hprices : draft.pricing = .price input output true) (hnamed : isBlankText draft.name = false)
    (hbounds : draft.bounds.error? = none) :
    Context.conversion basis (.ofPrice input (some output)) =
        .ok (.ofPrice basis input (some output)) ∧
      ∃ rule, draft.rule basis = .ok rule ∧
        (Conversion.ofPrice basis input (some output)).AgreesWith rule.pricing := by
  have hrule : draft.rule basis = .ok (draft.kept basis) := by
    rw [draft.rule_of_named hnamed basis, hbounds]
    rfl
  have hpricing : (draft.kept basis).pricing =
      DraftPricing.pricing basis (.price input output true) := by
    rw [← hprices]
    rfl
  refine ⟨conversion_ofPrice hinput houtput, _, hrule, ?_⟩
  rw [hpricing]
  exact agreesWith_ofPrice hinput

/-- A draft of prices that are kept as ratios, for outputs of more than 200 tokens. -/
def draftKeptAsRatios (input output : Float) : RuleDraft :=
  ⟨" p ", ⟨.unlimited, ⟨201, 0⟩⟩, .price input output true⟩

/-- Three dollars and twelve are converted to, and kept at, a completion ratio of four. An input
price of zero with a minus sign is converted to such a ratio and kept at one without, and the two
are equal. A completion ratio beyond all floats is zero on both ways. -/
theorem minus_zero_converts_as_it_is_kept :
    (Context.conversion ⟨500000⟩ (.ofPrice 3.0 (some 12.0)) =
        .ok (.ofPrice ⟨500000⟩ 3.0 (some 12.0)) ∧
      Conversion.ofPrice ⟨500000⟩ 3.0 (some 12.0) = ⟨⟨500000⟩, 1.5, 4.0, 3.0, 12.0, none⟩ ∧
      ∃ rule, (draftKeptAsRatios 3.0 12.0).rule ⟨500000⟩ = .ok rule ∧
        rule.pricing = .ratio 1.5 4.0 none ∧
        (Conversion.ofPrice ⟨500000⟩ 3.0 (some 12.0)).AgreesWith rule.pricing) ∧
    (Context.conversion ⟨500000⟩ (.ofPrice (-0.0) (some 12.0)) =
        .ok (.ofPrice ⟨500000⟩ (-0.0) (some 12.0)) ∧
      (Conversion.ofPrice ⟨500000⟩ (-0.0) (some 12.0)).inputRatio = -0.0 ∧
      ∃ rule, (draftKeptAsRatios (-0.0) 12.0).rule ⟨500000⟩ = .ok rule ∧
        rule.pricing = .ratio 0.0 1.0 none ∧
        (Conversion.ofPrice ⟨500000⟩ (-0.0) (some 12.0)).AgreesWith rule.pricing) ∧
    Context.conversion ⟨500000⟩ (.ofPrice 1e-160 (some 1e160)) =
        .ok (.ofPrice ⟨500000⟩ 1e-160 (some 1e160)) ∧
      ∃ rule, (draftKeptAsRatios 1e-160 1e160).rule ⟨500000⟩ = .ok rule ∧
        rule.pricing = .ratio 5e-161 0.0 none ∧
        (Conversion.ofPrice ⟨500000⟩ 1e-160 (some 1e160)).AgreesWith rule.pricing := by
  have hsize : IsSize 3.0 := ⟨by decide, by decide⟩
  have hsizes : IsSize (-0.0) ∧ IsSize 12.0 := ⟨⟨by decide, by decide⟩, by decide, by decide⟩
  have hsizes' : IsSize 1e-160 ∧ IsSize 1e160 :=
    ⟨⟨by decide +kernel, by decide +kernel⟩, by decide +kernel, by decide +kernel⟩
  obtain ⟨hordinary, kept, hkept, hsame⟩ :=
    prices_convert_as_drafts_keep_them ⟨500000⟩ (draftKeptAsRatios 3.0 12.0) hsize hsizes.2
      rfl (by decide) (by decide)
  obtain ⟨hconverts, rule, hrule, hagrees⟩ :=
    prices_convert_as_drafts_keep_them ⟨500000⟩ (draftKeptAsRatios (-0.0) 12.0) hsizes.1 hsizes.2
      rfl (by decide) (by decide)
  obtain ⟨hconverts', rule', hrule', hagrees'⟩ :=
    prices_convert_as_drafts_keep_them ⟨500000⟩ (draftKeptAsRatios 1e-160 1e160) hsizes'.1
      hsizes'.2 rfl (by decide) (by decide)
  refine ⟨⟨hordinary, by decide +kernel, kept, hkept, ?_, hsame⟩,
    ⟨hconverts, by decide, rule, hrule, ?_, hagrees⟩, hconverts', rule', hrule', ?_, hagrees'⟩
  · cases hkept
    decide +kernel
  · cases hrule
    decide
  · cases hrule'
    decide +kernel

end Tariff
