import Tariff.Proofs.Ungiven

/-!
# Fields that are given twice

Giving fields to a rule once more finds the rule that came of them. Whatever was given is given
again, and what was not given is taken from that rule, so nothing changes; but where prices are kept
as ratios, the rule that came of them has no prices any more, and a price that is not given starts
from zero there.

* `RuleFields.repriced`: the pricing that comes of another one when fields are given.
* `RuleFields.ForgetsOutput`: the one way in which giving the same again changes it.
  `RuleFields.repriced_repriced_iff`: that there is no other.
* `repeated_change_keeps_snapshot_iff`: the same of whole snapshots.
-/

namespace Tariff

open Text

variable {basis : Basis} {s next : Snapshot} {name rule : String} {config : TierConfig}
  {given : RuleFields}

/-! ## Pricing -/

/-- The pricing that comes of another one when fields are given. -/
def RuleFields.repriced (given : RuleFields) (basis : Basis) (old : Pricing) : Pricing :=
  (given.pricing old.draft).pricing basis

/-- An input price alone is to be kept as a ratio, and the rule is in dollars. Its output price goes
into a completion ratio other than one, and is no price of the rule that comes of it. -/
def RuleFields.ForgetsOutput (given : RuleFields) (old : Pricing) : Prop :=
  given.asRatio = true ∧ given.outputPrice = Option.none ∧
    ∃ price input output, given.inputPrice = some price ∧ old = .absolute input output ∧
      completionKept price output ≠ 1.0

namespace RuleFields

theorem getD_getD {α : Type} (x : Option α) (a : α) : x.getD (x.getD a) = x.getD a := by
  cases x <;> rfl

/-- A number that is zero or not given is zero where zero stands for what is not given. -/
theorem getD_zero {x : Option Float} {start : Float} (h : (x.getD start == 0.0) = true) :
    (x.getD 0.0 == 0.0) = true := by
  cases x with
  | none => decide
  | some value => exact h

/-- Ratios that are given take their places; the others are those that the rule starts from. -/
theorem repriced_of_ratios (hprice : given.givesPrice = false)
    (hratio : (given.givesInputRatio || given.outputRatio.isSome) = true) (old : Pricing) :
    given.repriced basis old =
      .ratio (given.ratio.getD (startRatios old.draft).1)
        (given.completion.getD (startRatios old.draft).2.1)
        (given.outputRatio.or
          (if given.givesInputRatio then .none else (startRatios old.draft).2.2)) := by
  unfold repriced pricing
  simp only [hprice, hratio, Bool.false_eq_true, if_false, if_true]
  rfl

/-- Prices that are given take their places; the others are those that the rule starts from. -/
theorem repriced_of_prices (hprice : given.givesPrice = true) (old : Pricing) :
    given.repriced basis old =
      (DraftPricing.price (given.inputPrice.getD (startPrices old.draft).1)
        (given.outputPrice.getD (startPrices old.draft).2) given.asRatio).pricing basis := by
  unfold repriced pricing
  simp only [hprice, if_true]

/-- Where no price is given, giving the same again changes nothing. -/
theorem repriced_repriced_of_no_price (hprice : given.givesPrice = false) (old : Pricing) :
    given.repriced basis (given.repriced basis old) = given.repriced basis old := by
  by_cases hratio : (given.givesInputRatio || given.outputRatio.isSome) = true
  · rw [repriced_of_ratios hprice hratio (given.repriced basis old),
      repriced_of_ratios hprice hratio old]
    simp only [Pricing.draft, startRatios, getD_getD]
    congr 1
    cases given.outputRatio <;> cases given.givesInputRatio <;> rfl
  · have hsame (old : Pricing) : given.repriced basis old = old.draft.pricing basis := by
      unfold repriced pricing
      simp only [hprice, hratio, Bool.false_eq_true, if_false]
    rw [hsame (given.repriced basis old), hsame old]
    exact (DraftPricing.priced basis old.draft).pricing_draft basis

/-- Where prices are kept as they are, giving the same again changes nothing: prices of zero are
kept as a ratio, and a rule with ratios starts from prices of zero. -/
theorem repriced_repriced_of_kept_prices (hprice : given.givesPrice = true)
    (hkept : given.asRatio = false) (old : Pricing) :
    given.repriced basis (given.repriced basis old) = given.repriced basis old := by
  rw [repriced_of_prices hprice (given.repriced basis old), repriced_of_prices hprice old, hkept]
  generalize startPrices old.draft = start
  by_cases hfree : (given.inputPrice.getD start.1 == 0.0 &&
      given.outputPrice.getD start.2 == 0.0) = true
  · have hfirst : (DraftPricing.price (given.inputPrice.getD start.1)
        (given.outputPrice.getD start.2) false).pricing basis = .ratio 0.0 1.0 .none := if_pos hfree
    -- The rule has ratios now, so the second time starts from prices of zero.
    rw [hfirst]
    rw [Bool.and_eq_true] at hfree
    exact if_pos (Bool.and_eq_true_iff.mpr ⟨getD_zero hfree.1, getD_zero hfree.2⟩)
  · have hfirst : (DraftPricing.price (given.inputPrice.getD start.1)
        (given.outputPrice.getD start.2) false).pricing basis =
          .absolute (given.inputPrice.getD start.1) (given.outputPrice.getD start.2) :=
      if_neg hfree
    rw [hfirst]
    simp only [Pricing.draft, startPrices, getD_getD]
    exact hfirst

/-- Prices that are kept as ratios, with an input price given. -/
theorem repriced_of_input_price {price : Float} (hratio : given.asRatio = true)
    (hinput : given.inputPrice = some price) (old : Pricing) :
    given.repriced basis old =
      .ratio (if price > 0.0 then basis.ratioOfPrice price else 0.0)
        (completionKept price (given.outputPrice.getD (startPrices old.draft).2)) .none := by
  have hprice : given.givesPrice = true := by simp [givesPrice, hinput]
  rw [repriced_of_prices hprice, hinput, hratio]
  rfl

theorem completionKept_zero (price : Float) : completionKept price 0.0 = 1.0 := by
  have hzero : ¬ (0.0 : Float) > 0.0 := by decide
  unfold completionKept
  simp [hzero]

/-- Where prices are kept as ratios, the second time starts from an output price of zero. -/
theorem repriced_repriced_of_input_price {price : Float} (hratio : given.asRatio = true)
    (hinput : given.inputPrice = some price) (old : Pricing) :
    given.repriced basis (given.repriced basis old) = given.repriced basis old ↔
      completionKept price (given.outputPrice.getD 0.0) =
        completionKept price (given.outputPrice.getD (startPrices old.draft).2) := by
  rw [repriced_of_input_price hratio hinput (given.repriced basis old),
    repriced_of_input_price hratio hinput old]
  simp only [Pricing.draft, startPrices, Pricing.ratio.injEq, true_and, and_true]

theorem completionKept_eq_iff_not_forgetsOutput {price : Float} (hratio : given.asRatio = true)
    (hinput : given.inputPrice = some price) {old : Pricing} :
    completionKept price (given.outputPrice.getD 0.0) =
        completionKept price (given.outputPrice.getD (startPrices old.draft).2) ↔
      ¬ given.ForgetsOutput old := by
  unfold ForgetsOutput
  cases houtput : given.outputPrice with
  | some output => simp
  | none =>
    cases old with
    | ratio input completion output => simp [Pricing.draft, startPrices]
    | absolute input output =>
      simp [Pricing.draft, startPrices, hratio, hinput, completionKept_zero, eq_comm]

/-- Giving the same again changes nothing but where an output price is forgotten. -/
theorem repriced_repriced_iff (hratio : given.asRatio = true → given.inputPrice.isSome = true)
    (old : Pricing) :
    given.repriced basis (given.repriced basis old) = given.repriced basis old ↔
      ¬ given.ForgetsOutput old := by
  cases hkept : given.asRatio with
  | true =>
    obtain ⟨price, hinput⟩ := Option.isSome_iff_exists.mp (hratio hkept)
    exact (repriced_repriced_of_input_price hkept hinput old).trans
      (completionKept_eq_iff_not_forgetsOutput hkept hinput)
  | false =>
    have hnot : ¬ given.ForgetsOutput old := fun h => by
      rw [h.1] at hkept
      cases hkept
    refine iff_of_true ?_ hnot
    cases hprice : given.givesPrice with
    | true => exact repriced_repriced_of_kept_prices hprice hkept old
    | false => exact repriced_repriced_of_no_price hprice old

/-! ## Rules -/

/-- Bounds are the same when they are given again. -/
theorem bounds_bounds (given : RuleFields) (old : TokenBounds) :
    given.bounds (given.bounds old) = given.bounds old := by
  simp only [bounds, getD_getD]

/-- A rule that comes of fields without a name has its name trimmed, the given bounds and the given
numbers in its pricing. -/
theorem renewed_of_no_name (hname : given.name = .none) (old : Rule) :
    given.renewed basis old =
      ⟨trimmed old.name, given.bounds old.bounds, given.repriced basis old.pricing⟩ := by
  unfold renewed apply
  rw [hname]
  rfl

/-- Fields that are given again to the rule that came of them find the same faults. -/
theorem faults_apply_renewed (hname : given.name = .none) {old : Rule}
    (hold : trimmed old.name = old.name) :
    (given.apply (given.renewed basis old).draft).faults = (given.apply old.draft).faults := by
  have happly (rule : Rule) : given.apply rule.draft =
      ⟨rule.name, given.bounds rule.bounds, given.pricing rule.pricing.draft⟩ := by
    unfold apply
    rw [hname]
    rfl
  rw [happly (given.renewed basis old), happly old, renewed_of_no_name hname old, hold]
  simp only [RuleDraft.faults, bounds_bounds]

/-- A rule comes out of a second time as it came out of the first if its pricing does. -/
theorem renewed_renewed_iff (hname : given.name = .none) {old : Rule}
    (hold : trimmed old.name = old.name) :
    given.renewed basis (given.renewed basis old) = given.renewed basis old ↔
      given.repriced basis (given.repriced basis old.pricing) =
        given.repriced basis old.pricing := by
  rw [renewed_of_no_name hname (given.renewed basis old), renewed_of_no_name hname old, hold]
  simp only [Rule.mk.injEq, hold, bounds_bounds, true_and]

end RuleFields

/-! ## Snapshots -/

/-- A rule of the same name in the place of the first is the first. -/
theorem FirstNamed.set {rules : List Rule} {index : ℕ} {old new : Rule}
    (h : FirstNamed rules rule index old) (hnew : new.name = rule) :
    FirstNamed (rules.set index new) rule index new := by
  obtain ⟨hlt, -⟩ := List.getElem?_eq_some_iff.mp h.at_index
  refine ⟨List.getElem?_set_self hlt, hnew, fun i r hi hr => h.none_before i r hi ?_⟩
  rwa [List.getElem?_set_ne hi.ne'] at hr

/-- Another rule at the index takes no room from the one that is put there. -/
theorem TierConfig.HasRoomFor.set {index : ℕ} (h : config.HasRoomFor (some index) rule)
    (new : Rule) :
    { config with rules := config.rules.set index new }.HasRoomFor (some index) rule := by
  intro i r hr hsame
  by_cases hi : index = i
  · exact congrArg some hi
  · rw [List.getElem?_set_ne hi] at hr
    exact h i r hr hsame

/-- Fields without a name, given once more to a rule that they have changed, are taken again, and
leave the snapshot as it is, unless an output price was forgotten: an input price alone is kept as a
ratio, and the rule was in dollars. -/
theorem repeated_change_keeps_snapshot_iff (hrule : trimmed rule = rule)
    (hname : given.name = none)
    (hratio : given.asRatio = true → given.inputPrice.isSome = true)
    (h : given.change basis s name rule = .ok next) :
    ∃ config index old, s.configs.get? name = some config ∧
      FirstNamed config.rules rule index old ∧
      (∃ again, given.change basis next name rule = .ok again) ∧
      (given.change basis next name rule = .ok next ↔ ¬ given.ForgetsOutput old.pricing) := by
  obtain ⟨config, index, old, hget, hfirst, hdraft, hroom, rfl⟩ :=
    RuleFields.change_eq_ok_iff.mp h
  obtain rfl := hfirst.named
  have hsame (other : Rule) (hother : other.name = old.name) :
      (given.renewed basis other).name = old.name := by
    rw [RuleFields.renewed_of_no_name hname other, hother]
    exact hrule
  -- The name is the same both times, so the same rule is found, and the same room is there.
  rw [hsame old rfl] at hroom
  have hplaced := hfirst.set (hsame old rfl)
  have hthere : (s.withConfig name { config with
      rules := config.rules.set index (given.renewed basis old) }).configs.get? name =
      some { config with rules := config.rules.set index (given.renewed basis old) } := by
    rw [Snapshot.get?_withConfig, if_pos rfl]
  have hsound : ∀ fault ∈ (given.apply (given.renewed basis old).draft).faults, ¬ fault.1 := by
    rwa [RuleFields.faults_apply_renewed hname hrule]
  have hfree : { config with rules := config.rules.set index (given.renewed basis old) }.HasRoomFor
      (some index) (given.renewed basis (given.renewed basis old)).name := by
    rw [hsame _ (hsame old rfl)]
    exact hroom.set _
  have hagain := RuleFields.change_eq_ok_iff.mpr
    ⟨_, index, _, hthere, hplaced, hsound, hfree, rfl⟩
  refine ⟨config, index, old, hget, hfirst, ⟨_, hagain⟩, ?_⟩
  rw [hagain, Except.ok.injEq, Snapshot.withConfig_set_eq_iff hthere hplaced.at_index,
    RuleFields.renewed_renewed_iff hname hrule]
  exact RuleFields.repriced_repriced_iff hratio old.pricing

/-- A snapshot with one rule. -/
def lone (pricing : Pricing) : Snapshot := refundSnapshot [⟨"x", .unlimited, pricing⟩]

/-- An input price of one dollar, to be kept as a ratio, with or without an output price. -/
def dollarAsRatio (output : Option Float) : RuleFields :=
  { RuleFields.none with inputPrice := some 1.0, outputPrice := output, asRatio := true }

/-- Both prices, given again, come to the same ratios. -/
theorem both_prices_are_kept_as_ratios_again :
    (dollarAsRatio (some 2.0)).change (.ofQuotaPerUnit 0) (lone (.absolute 1.0 4.0)) "gpt" "x" =
      .ok (lone (.ratio 0.5 2.0 none)) ∧
    (dollarAsRatio (some 2.0)).change (.ofQuotaPerUnit 0) (lone (.ratio 0.5 2.0 none)) "gpt" "x" =
      .ok (lone (.ratio 0.5 2.0 none)) := by
  have hchange : (dollarAsRatio (some 2.0)).change (.ofQuotaPerUnit 0) (lone (.absolute 1.0 4.0))
      "gpt" "x" = .ok (lone (.ratio 0.5 2.0 none)) := by decide +kernel
  obtain ⟨config, index, old, -, -, -, hsame⟩ :=
    repeated_change_keeps_snapshot_iff (by decide) rfl (fun _ => rfl) hchange
  exact ⟨hchange, hsame.mpr fun hforgets => by cases hforgets.2.1⟩

/-- Of a rule in dollars that is loaded from a text, an output price of two dollars goes into the
completion ratio; the second time it is forgotten, and the output costs what the input costs. -/
theorem output_price_is_forgotten :
    Snapshot.ofText (lone (.absolute 1.0 2.0)).toText = .ok (lone (.absolute 1.0 2.0)) ∧
    (dollarAsRatio none).change (.ofQuotaPerUnit 0) (lone (.absolute 1.0 2.0)) "gpt" "x" =
      .ok (lone (.ratio 0.5 2.0 none)) ∧
    (dollarAsRatio none).change (.ofQuotaPerUnit 0) (lone (.ratio 0.5 2.0 none)) "gpt" "x" =
      .ok (lone (.ratio 0.5 1.0 none)) ∧
    lone (.ratio 0.5 1.0 none) ≠ lone (.ratio 0.5 2.0 none) := by
  refine ⟨Snapshot.ofText_toText fun e he => ?_, ?_, ?_, ?_⟩
  · rw [List.mem_singleton.mp he]
    refine ⟨⟨"gpt-4o,gpt-5*", rfl⟩, ?_⟩
    rw [List.forall_mem_singleton]
    refine ⟨by decide, fun input output hprices => ?_⟩
    cases hprices
    decide
  · decide +kernel
  · decide +kernel
  · decide +kernel

end Tariff
