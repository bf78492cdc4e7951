import Tariff.Proofs.Edit
import Tariff.Proofs.Stored

/-!
# Loading what an edit has saved

The snapshot that an edit makes is saved without a check of its numbers, and the stored form cannot
hold a float that is no number.

* `Edit.entered`: the numbers that an edit stores as they are entered. Prices that are kept as ratios
  are converted, and come out finite whatever they are.
* `Edit.representable_apply`: an edit with finite numbers leads from what can be stored to what can.
* `edit_loads_again_iff`: the result of an edit is loaded again exactly if those numbers are finite.
-/

namespace Tariff

open Number

/-! ## The numbers of a draft -/

/-- The numbers of a draft that are stored as they are entered. -/
def DraftPricing.entered : DraftPricing → List Float
  | ratio input completion output => input :: completion :: output.toList
  | price _ _ true => []
  | price input output false => [input, output]

/-- The numbers of an edit that are stored as they are entered. -/
def Edit.entered : Edit → List Float
  | putRule _ _ draft => draft.pricing.entered
  | replaceRule _ _ draft => draft.pricing.entered
  | _ => []

theorem isFinite_quotient (a b : Float) : (quotient a b).isFinite = true := by
  unfold quotient
  by_cases hdivisor : (b == 0.0 || !b.isFinite) = true
  · rw [if_pos hdivisor]
    exact isFinite_zero
  · rw [if_neg hdivisor]
    show (if (a / b).isFinite then a / b else 0.0).isFinite = true
    by_cases hvalue : (a / b).isFinite = true
    · rw [if_pos hvalue]
      exact hvalue
    · rw [if_neg hvalue]
      exact isFinite_zero

/-- Prices that are kept as ratios come out finite. -/
theorem isFinite_ratios (basis : Basis) (input output : Float) :
    ∀ x ∈ (DraftPricing.pricing basis (.price input output true)).values, x.isFinite = true := by
  simp only [DraftPricing.pricing, Pricing.values, List.forall_mem_cons]
  refine ⟨?_, ?_, List.forall_mem_nil _⟩
  · split
    · exact isFinite_quotient _ _
    · exact isFinite_zero
  · unfold completionKept
    split
    · exact isFinite_quotient _ _
    · exact isFinite_one

theorem isFinite_of_beq_zero {x : Float} (h : (x == 0.0) = true) : x.isFinite = true := by
  obtain ⟨-, -, rfl | ⟨rfl, -⟩ | ⟨rfl, -⟩⟩ := Float.beq_iff_ne_nan_and_eq.mp h <;> rfl

/-- The pricing of a draft can be stored exactly if the numbers that it takes over are finite. -/
theorem DraftPricing.representable_iff (basis : Basis) (draft : DraftPricing) :
    (draft.pricing basis).Representable ↔ ∀ x ∈ draft.entered, x.isFinite = true := by
  cases draft with
  | ratio input completion output =>
    exact ⟨fun h => h.finite, fun h => ⟨h, fun _ _ heq => by cases heq⟩⟩
  | price input output asRatio =>
    cases asRatio with
    | true =>
      refine ⟨fun _ x hx => (List.not_mem_nil hx).elim, fun _ => ?_⟩
      exact ⟨isFinite_ratios basis input output, fun _ _ heq => by cases heq⟩
    | false =>
      by_cases hzero : (input == 0.0 && output == 0.0) = true
      · -- Two prices of zero are kept as a ratio of zero.
        have hpricing : pricing basis (.price input output false) = .ratio 0.0 1.0 none :=
          if_pos hzero
        rw [Bool.and_eq_true] at hzero
        rw [hpricing]
        simp only [entered, List.forall_mem_cons]
        refine ⟨fun _ => ⟨isFinite_of_beq_zero hzero.1, isFinite_of_beq_zero hzero.2,
          List.forall_mem_nil _⟩, fun _ => ?_⟩
        exact ⟨by decide, fun _ _ heq => by cases heq⟩
      · have hpricing : pricing basis (.price input output false) = .absolute input output :=
          if_neg hzero
        rw [hpricing]
        refine ⟨fun h => h.finite, fun h => ⟨h, fun _ _ heq => ?_⟩⟩
        cases heq
        exact hzero

theorem pricing_of_rule {draft : RuleDraft} {basis : Basis} {rule : Rule}
    (h : draft.rule basis = .ok rule) : rule.pricing = draft.pricing.pricing basis := by
  obtain ⟨-, -, rfl⟩ := RuleDraft.rule_eq_ok h
  rfl

/-! ## Edits -/

/-- Rules that come with an edit are read from a text, unless there are none. -/
def Edit.RulesAreRead (edit : Edit) : Prop :=
  ∀ name models rules, edit = .addConfig name models (some rules) →
    rules = [] ∨ ∃ text, Json.decode (·.asList Rule.read) text = .ok rules

theorem representable_defaultRules : ∀ rule ∈ defaultRules, rule.pricing.Representable := by
  have hfinite : ∀ rule ∈ defaultRules, ∀ x ∈ rule.pricing.values, x.isFinite = true := by
    decide
  refine fun rule hrule => ⟨hfinite rule hrule, fun input output heq => ?_⟩
  exact absurd heq (pricing_ne_absolute_of_mem_defaultRules hrule input output)

theorem representable_of_rulesAreRead {name models : String} {rules : Option (List Rule)}
    (h : (Edit.addConfig name models rules).RulesAreRead) :
    ∀ rule ∈ rules.getD defaultRules, rule.pricing.Representable := by
  cases rules with
  | none => exact representable_defaultRules
  | some rules =>
    intro rule hrule
    rcases h name models rules rfl with rfl | ⟨text, htext⟩
    · cases hrule
    · obtain ⟨d, hd, hread⟩ := Json.exists_of_decode htext
      obtain ⟨e, he, hrule⟩ :=
        Document.exists_of_asList Document.hereditary_isFinite hd hread rule hrule
      exact Rule.representable_of_read he hrule

variable {basis : Basis} {s next : Snapshot} {edit : Edit} {name : String} {config : TierConfig}

theorem Snapshot.Representable.get? (h : s.Representable)
    (hget : s.configs.get? name = some config) : config.Representable :=
  h (name, config) (Table.mem_entries_iff.mpr hget)

/-- A draft of finite numbers, put into a configuration that can be stored, leaves it so. -/
theorem TierConfig.Representable.putRule {index : Option ℕ} {draft : RuleDraft} {rule : Rule}
    {config' : TierConfig} (h : config.Representable) (hdraft : draft.rule basis = .ok rule)
    (hfinite : ∀ x ∈ draft.pricing.entered, x.isFinite = true)
    (hput : config.putRule name index rule = .ok config') : config'.Representable := by
  obtain ⟨raw, hraw⟩ := h.models
  refine ⟨⟨raw, by rw [models_putRule hput, hraw]⟩, fun r hr => ?_⟩
  rcases (mem_putRule hput).2 r hr with rfl | hr
  · rw [pricing_of_rule hdraft]
    exact (DraftPricing.representable_iff basis draft.pricing).mpr hfinite
  · exact h.rules r hr

/-- What an edit of finite numbers puts can be stored. -/
theorem Edit.Puts.representable (h : edit.Puts basis s name config) (hs : s.Representable)
    (hrules : edit.RulesAreRead) (hfinite : ∀ x ∈ edit.entered, x.isFinite = true) :
    config.Representable := by
  cases h with
  | @add _ models _ _ hname hnew hmodels =>
    exact ⟨⟨models, hmodels⟩, representable_of_rulesAreRead hrules⟩
  | copy hold hnew => exact ⟨(hs.get? hold).models, (hs.get? hold).rules⟩
  | enable hold => exact ⟨(hs.get? hold).models, (hs.get? hold).rules⟩
  | priority hold => exact ⟨(hs.get? hold).models, (hs.get? hold).rules⟩
  | @models _ models _ _ hmodels hold => exact ⟨⟨models, hmodels⟩, (hs.get? hold).rules⟩
  | put hdraft hold hput => exact (hs.get? hold).putRule hdraft hfinite hput
  | replace hindex hdraft hold hput => exact (hs.get? hold).putRule hdraft hfinite hput
  | remove hindex hold =>
    exact ⟨(hs.get? hold).models, fun r hr => (hs.get? hold).rules r (List.mem_of_mem_eraseIdx hr)⟩
  | @move _ _ direction i config hindex hold =>
    obtain ⟨rules, hperm, hmove⟩ := config.perm_moveRule i direction
    rw [hmove]
    exact ⟨(hs.get? hold).models, fun r hr => (hs.get? hold).rules r (hperm.mem_iff.mp hr)⟩
  | reset hold => exact ⟨(hs.get? hold).models, representable_defaultRules⟩

theorem Snapshot.Representable.withConfig (hs : s.Representable) (hconfig : config.Representable) :
    (s.withConfig name config).Representable := by
  intro e he
  rcases Table.mem_place he with rfl | he
  · exact hconfig
  · exact hs e he

/-- An edit of finite numbers leads from what can be stored to what can be stored. -/
theorem Edit.representable_apply (h : edit.apply basis s = .ok next) (hs : s.Representable)
    (hrules : edit.RulesAreRead) (hfinite : ∀ x ∈ edit.entered, x.isFinite = true) :
    next.Representable := by
  obtain ⟨enabled, -, rfl⟩ | ⟨name, config, -, -, rfl⟩ | ⟨name, config, hputs, rfl⟩ := apply_cases h
  · exact hs
  · exact fun e he => hs e (List.mem_of_mem_filter he)
  · exact hs.withConfig (hputs.representable hs hrules hfinite)

/-! ## Loading again -/

/-- The pricing of all rules, by configuration. -/
def Snapshot.pricings (snapshot : Snapshot) : List (String × List Pricing) :=
  snapshot.configs.entries.map fun e => (e.1, e.2.rules.map (·.pricing))

/-- The text of the snapshot is loaded, and every rule has its pricing. -/
def Snapshot.LoadsAgain (snapshot : Snapshot) : Prop :=
  ∃ again, Snapshot.ofText snapshot.toText = .ok again ∧ again.pricings = snapshot.pricings

theorem representable_of_mem_pricings {e : String × List Pricing} {pricing : Pricing}
    (h : s.Representable) (he : e ∈ s.pricings) (hp : pricing ∈ e.2) : pricing.Representable := by
  obtain ⟨stored, hstored, rfl⟩ := List.mem_map.mp he
  obtain ⟨rule, hrule, rfl⟩ := List.mem_map.mp hp
  exact (h stored hstored).rules rule hrule

/-- The draft of a rule that was put has finite numbers if the snapshot is loaded again. -/
theorem finite_of_loadsAgain {index : Option ℕ} {draft : RuleDraft} {rule : Rule}
    {config' : TierConfig} (hdraft : draft.rule basis = .ok rule)
    (hput : config.putRule name index rule = .ok config')
    (h : (s.withConfig name config').LoadsAgain) :
    ∀ x ∈ draft.pricing.entered, x.isFinite = true := by
  obtain ⟨again, hagain, hsame⟩ := h
  have hmem : (name, config') ∈ (s.configs.insert name config').entries :=
    Table.mem_entries_iff.mpr (by rw [Table.get?_insert, if_pos rfl])
  have hstored : (name, config'.rules.map (·.pricing)) ∈ (s.withConfig name config').pricings :=
    List.mem_map.mpr ⟨(name, config'), hmem, rfl⟩
  rw [← hsame] at hstored
  -- Whatever was loaded can be stored, the pricing of the rule included.
  have hrule : rule.pricing.Representable :=
    representable_of_mem_pricings (Snapshot.representable_of_ofText hagain) hstored
      (List.mem_map_of_mem (TierConfig.mem_putRule hput).1)
  rw [pricing_of_rule hdraft] at hrule
  exact (DraftPricing.representable_iff basis draft.pricing).mp hrule

/-- What an edit makes of a snapshot that was loaded is loaded again, with the pricing of every rule,
exactly if the numbers that the edit takes over are finite. -/
theorem edit_loads_again_iff {text : String} (hs : Snapshot.ofText text = .ok s)
    (hrules : edit.RulesAreRead) (h : edit.apply basis s = .ok next) :
    next.LoadsAgain ↔ ∀ x ∈ edit.entered, x.isFinite = true := by
  constructor
  · intro hloads
    obtain ⟨enabled, rfl, -⟩ | ⟨name, config, rfl, -, -⟩ | ⟨name, config, hputs, rfl⟩ :=
      Edit.apply_cases h
    · exact List.forall_mem_nil _
    · exact List.forall_mem_nil _
    · cases hputs with
      | put hdraft hold hput => exact finite_of_loadsAgain hdraft hput hloads
      | replace hindex hdraft hold hput => exact finite_of_loadsAgain hdraft hput hloads
      | _ => exact List.forall_mem_nil _
  · intro hfinite
    have hnext := Edit.representable_apply h (Snapshot.representable_of_ofText hs) hrules hfinite
    exact ⟨next, Snapshot.ofText_toText hnext, rfl⟩

/-- A configuration for one model, with at most one rule, of some input ratio. -/
def gpt (ratio : Option Float) : Snapshot :=
  ⟨true, .single "gpt" ⟨true, ⟨[.exact "gpt-4o"]⟩, 1,
    ratio.toList.map fun x => ⟨"x", .unlimited, .ratio x 1.0 none⟩⟩⟩

/-- The edit that appends a rule of some input ratio. -/
def appendRatio (x : Float) : Edit :=
  .putRule "gpt" none ⟨"x", .unlimited, .ratio x 1.0 none⟩

theorem apply_appendRatio (x : Float) :
    (appendRatio x).apply (.ofQuotaPerUnit 0) (gpt none) = .ok (gpt (some x)) := by
  have hname : Text.trimmed "x" = "x" := by decide
  have hblank : Text.isBlankText "x" = false := by decide
  have hbounds : TokenBounds.unlimited.error? = none := by decide
  have hdraft : RuleDraft.rule ⟨"x", .unlimited, .ratio x 1.0 none⟩ (.ofQuotaPerUnit 0) =
      .ok ⟨"x", .unlimited, .ratio x 1.0 none⟩ := by
    unfold RuleDraft.rule
    simp only [hblank, hbounds, hname, Bool.false_eq_true, if_false]
    rfl
  have hold : (gpt none).config "gpt" = .ok ⟨true, ⟨[.exact "gpt-4o"]⟩, 1, []⟩ := rfl
  refine bind_eq_ok_iff.mpr ⟨_, hdraft, bind_eq_ok_iff.mpr ⟨_, hold, ?_⟩⟩
  refine map_eq_ok_iff.mpr
    ⟨⟨true, ⟨[.exact "gpt-4o"]⟩, 1, [⟨"x", .unlimited, .ratio x 1.0 none⟩]⟩, rfl, ?_⟩
  unfold Snapshot.withConfig gpt
  rw [Table.insert_single]
  rfl

theorem ofText_gpt : Snapshot.ofText (gpt none).toText = .ok (gpt none) := by
  refine Snapshot.ofText_toText fun e he => ?_
  rw [List.mem_singleton.mp he]
  exact ⟨⟨"gpt-4o", rfl⟩, List.forall_mem_nil _⟩

/-- A half is taken over, and loaded again. -/
theorem half_loads_again : (gpt (some 0.5)).LoadsAgain := by
  have hrules : (appendRatio 0.5).RulesAreRead := fun _ _ _ heq => by cases heq
  exact (edit_loads_again_iff ofText_gpt hrules (apply_appendRatio 0.5)).mpr (by decide)

/-- What is no number is taken over as well, and no text that can be loaded comes of it. -/
theorem nan_locks_out :
    Snapshot.ofText (gpt none).toText = .ok (gpt none) ∧
    (appendRatio (0.0 / 0.0)).apply (.ofQuotaPerUnit 0) (gpt none) = .ok (gpt (some (0.0 / 0.0))) ∧
    Snapshot.ofText (gpt (some (0.0 / 0.0))).toText = .error .malformed := by
  refine ⟨ofText_gpt, apply_appendRatio _, ?_⟩
  unfold Snapshot.ofText Snapshot.toText
  rw [Json.decode_pretty _ (Snapshot.fits_json _)]
  rfl

end Tariff
