import Tariff.Proofs.Fields
import Tariff.Proofs.Put

/-!
# Fields that are not given

Fields of a rule are changed by way of a draft: the rule is turned into one, the given fields are
put in, and the draft takes the place of the rule. Whatever is not given comes out as it was.

* `RuleFields.change`: what giving fields does to a snapshot. `RuleFields.change_eq_ok_iff`: when it
  succeeds, and with which rule.
* `Snapshot.Reached`: the snapshots that loading and edits lead to. In none of them is a rule priced
  in dollars at nothing, which is what a draft could not keep (`Snapshot.Reached.priced`).
* `fields_not_given_are_kept`: pricing and bounds that are not given, and all else.
-/

namespace Tariff

open Text

/-! ## Pricing that a draft keeps -/

/-- The pricing is not in dollars with both prices zero. -/
def Pricing.Priced (pricing : Pricing) : Prop :=
  ∀ input output, pricing = .absolute input output → ¬ (input == 0.0 && output == 0.0)

/-- Such pricing, taken for a draft, is kept as it is. -/
theorem Pricing.Priced.pricing_draft {pricing : Pricing} (h : pricing.Priced) (basis : Basis) :
    pricing.draft.pricing basis = pricing := by
  cases pricing with
  | ratio input completion output => rfl
  | absolute input output => exact if_neg (h input output rfl)

theorem DraftPricing.priced (basis : Basis) (draft : DraftPricing) :
    (draft.pricing basis).Priced :=
  draft.priced_pricing basis

/-! ## Snapshots that edits lead to -/

/-- All rules of the snapshot are priced. -/
def Snapshot.Priced (s : Snapshot) : Prop :=
  ∀ e ∈ s.configs.entries, ∀ rule ∈ e.2.rules, rule.pricing.Priced

/-- The snapshots that are loaded from a text, and those that edits lead to from one of them or from
the one without configurations. Rules that an edit brings along are read from a text, too. -/
inductive Snapshot.Reached : Snapshot → Prop
  | empty : Reached .empty
  | loaded {text : String} {s : Snapshot} (h : Snapshot.ofText text = .ok s) : Reached s
  | edited {basis : Basis} {s next : Snapshot} {edit : Edit} (hs : Reached s)
      (hrules : edit.RulesAreRead) (h : edit.apply basis s = .ok next) : Reached next

variable {basis : Basis} {s next : Snapshot} {edit : Edit} {name rule : String}
  {config : TierConfig} {given : RuleFields}

/-- A rule that an edit puts was there before, or is one of the template, or comes with the edit. -/
theorem Edit.Puts.mem_rules (h : edit.Puts basis s name config) {rule : Rule}
    (hrule : rule ∈ config.rules) :
    (∃ e ∈ s.configs.entries, rule ∈ e.2.rules) ∨ rule ∈ defaultRules ∨
      (∃ draft : RuleDraft, draft.rule basis = .ok rule) ∨
      ∃ new models rules, edit = .addConfig new models (some rules) ∧ rule ∈ rules := by
  have hthere {name : String} {config : TierConfig} (hold : s.configs.get? name = some config)
      (hrule : rule ∈ config.rules) : ∃ e ∈ s.configs.entries, rule ∈ e.2.rules :=
    ⟨(name, config), Table.mem_entries_iff.mpr hold, hrule⟩
  cases h with
  | @add new models rules patterns hname hnew hmodels =>
    cases rules with
    | none => exact .inr (.inl hrule)
    | some rules => exact .inr (.inr (.inr ⟨new, models, rules, rfl, hrule⟩))
  | copy hold hnew => exact .inl (hthere hold hrule)
  | enable hold => exact .inl (hthere hold hrule)
  | priority hold => exact .inl (hthere hold hrule)
  | models hmodels hold => exact .inl (hthere hold hrule)
  | @put _ _ draft _ _ _ hdraft hold hput =>
    rcases (TierConfig.mem_putRule hput).2 rule hrule with rfl | hrule
    · exact .inr (.inr (.inl ⟨draft, hdraft⟩))
    · exact .inl (hthere hold hrule)
  | @replace _ _ _ draft _ _ _ hindex hdraft hold hput =>
    rcases (TierConfig.mem_putRule hput).2 rule hrule with rfl | hrule
    · exact .inr (.inr (.inl ⟨draft, hdraft⟩))
    · exact .inl (hthere hold hrule)
  | remove hindex hold => exact .inl (hthere hold (List.mem_of_mem_eraseIdx hrule))
  | @move _ _ direction i config hindex hold =>
    obtain ⟨rules, hperm, hmove⟩ := config.perm_moveRule i direction
    rw [hmove] at hrule
    exact .inl (hthere hold (hperm.mem_iff.mp hrule))
  | reset hold => exact .inr (.inl hrule)

theorem Edit.priced_apply (h : edit.apply basis s = .ok next) (hs : s.Priced)
    (hrules : edit.RulesAreRead) : next.Priced := by
  obtain ⟨enabled, -, rfl⟩ | ⟨name, config, -, -, rfl⟩ | ⟨name, config, hputs, rfl⟩ := apply_cases h
  · exact hs
  · exact fun e he => hs e (List.mem_of_mem_filter he)
  · intro e he rule hrule
    rcases Table.mem_place he with rfl | he
    · obtain ⟨old, hold, hrule⟩ | hrule | ⟨draft, hdraft⟩ | ⟨new, models, rules, rfl, hrule⟩ :=
        hputs.mem_rules hrule
      · exact hs old hold rule hrule
      · exact fun input output heq =>
          absurd heq (pricing_ne_absolute_of_mem_defaultRules hrule input output)
      · rw [pricing_of_rule hdraft]
        exact draft.pricing.priced basis
      · exact (representable_of_rulesAreRead hrules rule hrule).priced
    · exact hs e he rule hrule

theorem Snapshot.Reached.priced (h : s.Reached) : s.Priced := by
  induction h with
  | empty => exact List.forall_mem_nil _
  | loaded h =>
    exact fun e he rule hrule => ((representable_of_ofText h e he).rules rule hrule).priced
  | edited _ hrules h ih => exact Edit.priced_apply h ih hrules

/-! ## Changes of fields -/

/-- Gives fields to the first rule of a name in a configuration. -/
def RuleFields.change (given : RuleFields) (basis : Basis) (s : Snapshot) (name rule : String) :
    Except EditError Snapshot :=
  (given.edit s name rule).bind (·.apply basis s)

/-- The rule that comes of another one when fields are given. -/
def RuleFields.renewed (given : RuleFields) (basis : Basis) (old : Rule) : Rule :=
  (given.apply old.draft).kept basis

/-- Fields are given to a rule if the draft that comes of them is sound and no other rule has the
name. -/
theorem RuleFields.change_eq_ok_iff :
    given.change basis s name rule = .ok next ↔
      ∃ config index old, s.configs.get? name = some config ∧
        FirstNamed config.rules rule index old ∧
        (∀ fault ∈ (given.apply old.draft).faults, ¬ fault.1) ∧
        config.HasRoomFor (some index) (given.renewed basis old).name ∧
        next = s.withConfig name
          { config with rules := config.rules.set index (given.renewed basis old) } := by
  constructor
  · intro h
    obtain ⟨edit, hedit, h⟩ := bind_eq_ok_iff.mp h
    obtain ⟨config, index, old, hget, hindex, hat, rfl⟩ := edit_eq_ok_iff.mp hedit
    obtain ⟨index', hindex', h⟩ := bind_eq_ok_iff.mp h
    obtain ⟨config', hget', hsame⟩ := Snapshot.ruleIndex_eq_ok_iff.mp hindex'
    cases hget.symm.trans hget'
    cases hindex.symm.trans hsame
    obtain ⟨config', hget', hdraft, hput, rfl⟩ := Snapshot.putRule_eq_ok_iff.mp h
    cases hget.symm.trans hget'
    obtain ⟨old', hfirst⟩ := TierConfig.ruleIndex?_eq_some_iff.mp hindex
    cases hat.symm.trans hfirst.at_index
    exact ⟨config, index, old, hget, hfirst, hdraft, (TierConfig.no_putFaults_iff.mp hput).1, rfl⟩
  · rintro ⟨config, index, old, hget, hfirst, hdraft, hroom, rfl⟩
    have hindex := TierConfig.ruleIndex?_eq_some_iff.mpr ⟨old, hfirst⟩
    obtain ⟨hlt, -⟩ := List.getElem?_eq_some_iff.mp hfirst.at_index
    refine bind_eq_ok_iff.mpr
      ⟨_, edit_eq_ok_iff.mpr ⟨config, index, old, hget, hindex, hfirst.at_index, rfl⟩, ?_⟩
    refine bind_eq_ok_iff.mpr ⟨index, Snapshot.ruleIndex_eq_ok_iff.mpr ⟨config, hget, hindex⟩, ?_⟩
    exact Snapshot.putRule_eq_ok_iff.mpr
      ⟨config, hget, hdraft, TierConfig.no_putFaults_iff.mpr ⟨hroom, hlt⟩, rfl⟩

/-! ## What is not given -/

/-- No number of a pricing is given. -/
structure RuleFields.GivesNoPricing (given : RuleFields) : Prop where
  ratio : given.ratio = Option.none
  completion : given.completion = Option.none
  outputRatio : given.outputRatio = Option.none
  inputPrice : given.inputPrice = Option.none
  outputPrice : given.outputPrice = Option.none

/-- Bounds that are not given are as they were. -/
structure RuleFields.KeepsBounds (given : RuleFields) (old new : TokenBounds) : Prop where
  minInput : given.minInput = Option.none → new.input.min = old.input.min
  maxInput : given.maxInput = Option.none → new.input.max = old.input.max
  minOutput : given.minOutput = Option.none → new.output.min = old.output.min
  maxOutput : given.maxOutput = Option.none → new.output.max = old.output.max

theorem RuleFields.keepsBounds_bounds (given : RuleFields) (old : TokenBounds) :
    given.KeepsBounds old (given.bounds old) := by
  constructor <;> intro hnone <;> simp [bounds, hnone]

/-- Pricing of which nothing is given is kept. -/
theorem RuleFields.GivesNoPricing.pricing_renewed (h : given.GivesNoPricing) {old : Rule}
    (hold : old.pricing.Priced) : (given.renewed basis old).pricing = old.pricing := by
  have hsame : given.pricing old.pricing.draft = old.pricing.draft := by
    unfold RuleFields.pricing givesPrice givesInputRatio
    rw [h.ratio, h.completion, h.outputRatio, h.inputPrice, h.outputPrice]
    rfl
  show (given.pricing old.pricing.draft).pricing basis = old.pricing
  rw [hsame]
  exact hold.pricing_draft basis

theorem Snapshot.withConfig_self (h : s.configs.get? name = some config) :
    s.withConfig name config = s := by
  have hconfigs : s.configs.insert name config = s.configs := by
    refine Table.ext_get? fun other => ?_
    rw [Table.get?_insert]
    split
    · rename_i hother
      rw [hother, h]
    · rfl
  unfold withConfig
  rw [hconfigs]

/-- A rule that is put in the place of another one changes the snapshot unless it is the same. -/
theorem Snapshot.withConfig_set_eq_iff {index : ℕ} {old new : Rule}
    (hget : s.configs.get? name = some config) (hat : config.rules[index]? = some old) :
    s.withConfig name { config with rules := config.rules.set index new } = s ↔ new = old := by
  obtain ⟨hlt, rfl⟩ := List.getElem?_eq_some_iff.mp hat
  constructor
  · intro h
    have hafter := congrArg (·.configs.get? name) h
    simp only [get?_withConfig, if_true, hget, Option.some.injEq] at hafter
    have hrules := congrArg (·.rules[index]?) hafter
    simpa [hlt] using hrules
  · rintro rfl
    rw [List.set_getElem_self]
    exact withConfig_self hget

/-- Where nothing is given, a rule that is sound is put back. -/
theorem RuleFields.renewed_none (basis : Basis) {old : Rule} (hname : trimmed old.name = old.name)
    (hold : old.pricing.Priced) : RuleFields.none.renewed basis old = old := by
  have hpricing : (RuleFields.none.renewed basis old).pricing = old.pricing :=
    GivesNoPricing.pricing_renewed ⟨rfl, rfl, rfl, rfl, rfl⟩ hold
  show (⟨trimmed old.name, old.bounds, (RuleFields.none.renewed basis old).pricing⟩ : Rule) = old
  rw [hname, hpricing]

/-- Fields without a number of a pricing, given to a rule of a snapshot that was loaded or edited,
leave its pricing as it is, and all bounds that are not given; no other rule changes, and nothing
else does. Where no field is given at all, a rule with a name that is no other rule's, and bounds
that are not inverted, is put back, and the snapshot stays as it is. -/
theorem fields_not_given_are_kept (hs : s.Reached) (basis : Basis) (name rule : String) :
    (∀ (given : RuleFields) (next : Snapshot), given.GivesNoPricing →
      given.change basis s name rule = .ok next →
      ∃ config index old new, FirstNamed config.rules rule index old ∧
        s.ChangesRules next name config (config.rules.set index new) ∧
        new.name = trimmed (given.name.getD rule) ∧ given.KeepsBounds old.bounds new.bounds ∧
        new.pricing = old.pricing) ∧
    ∀ config index old, s.configs.get? name = some config →
      FirstNamed config.rules rule index old → IsName rule →
      (∀ i r, config.rules[i]? = some r → r.name = rule → i = index) →
      old.bounds.input.inverted = false → old.bounds.output.inverted = false →
      RuleFields.none.change basis s name rule = .ok s := by
  have hpriced {config : TierConfig} {index : ℕ} {old : Rule}
      (hget : s.configs.get? name = some config) (hfirst : FirstNamed config.rules rule index old) :
      old.pricing.Priced :=
    hs.priced (name, config) (Table.mem_entries_iff.mpr hget) old
      (List.mem_of_getElem? hfirst.at_index)
  constructor
  · intro given next hgiven h
    obtain ⟨config, index, old, hget, hfirst, -, -, rfl⟩ := RuleFields.change_eq_ok_iff.mp h
    refine ⟨config, index, old, given.renewed basis old, hfirst,
      Snapshot.changesRules_withConfig hget _, ?_, given.keepsBounds_bounds old.bounds,
      hgiven.pricing_renewed (hpriced hget hfirst)⟩
    rw [← hfirst.named]
    rfl
  · intro config index old hget hfirst hname hother hinput houtput
    obtain rfl := hfirst.named
    have hrenewed := RuleFields.renewed_none basis hname.trimmed (hpriced hget hfirst)
    refine RuleFields.change_eq_ok_iff.mpr ⟨config, index, old, hget, hfirst, ?_, ?_, ?_⟩
    · exact RuleDraft.no_faults_iff.mpr ⟨hname.not_blank, hinput, houtput⟩
    · rw [hrenewed]
      exact fun i r hr hsame => congrArg some (hother i r hr hsame).symm
    · exact ((Snapshot.withConfig_set_eq_iff hget hfirst.at_index).mpr hrenewed).symm

/-- A rule with an output ratio of its own, up to some length of the input. -/
def overridden (longest : UInt64) : Rule :=
  ⟨"long", ⟨⟨0, longest⟩, .unlimited⟩, .ratio 1.0 4.0 (some 0.5)⟩

/-- The output ratio stays when only a bound is given, and all stays when nothing is. -/
theorem output_ratio_outlives_new_bound :
    (refundSnapshot [overridden 0]).Reached ∧
    { RuleFields.none with maxInput := some 64000 }.change (.ofQuotaPerUnit 0)
      (refundSnapshot [overridden 0]) "gpt" "long" = .ok (refundSnapshot [overridden 64000]) ∧
    (∃ config index old new, FirstNamed config.rules "long" index old ∧
      (refundSnapshot [overridden 0]).ChangesRules (refundSnapshot [overridden 64000]) "gpt" config
        (config.rules.set index new) ∧ new.pricing = old.pricing) ∧
    RuleFields.none.change (.ofQuotaPerUnit 0) (refundSnapshot [overridden 0]) "gpt" "long" =
      .ok (refundSnapshot [overridden 0]) := by
  have hadd : (Edit.addConfig "gpt" "gpt-4o,gpt-5*" (some [])).apply (.ofQuotaPerUnit 0) .empty =
      .ok (refundSnapshot []) := by decide +kernel
  have hput : (Edit.putRule "gpt" none (overridden 0).draft).apply (.ofQuotaPerUnit 0)
      (refundSnapshot []) = .ok (refundSnapshot [overridden 0]) := by decide +kernel
  have hreached : (refundSnapshot [overridden 0]).Reached := by
    refine .edited (.edited .empty (fun _ _ _ heq => ?_) hadd) (fun _ _ _ heq => ?_) hput
    · cases heq
      exact .inl rfl
    · cases heq
  have hchange : { RuleFields.none with maxInput := some 64000 }.change (.ofQuotaPerUnit 0)
      (refundSnapshot [overridden 0]) "gpt" "long" = .ok (refundSnapshot [overridden 64000]) := rfl
  have hlong : FirstNamed [overridden 0] "long" 0 (overridden 0) :=
    ⟨rfl, rfl, fun i r hi => absurd hi (Nat.not_lt_zero i)⟩
  have honly : ∀ i r, [overridden 0][i]? = some r → r.name = "long" → i = 0 := by
    intro i r hr _
    exact Nat.lt_one_iff.mp (List.getElem?_eq_some_iff.mp hr).1
  obtain ⟨hkept, hsame⟩ := fields_not_given_are_kept hreached (.ofQuotaPerUnit 0) "gpt" "long"
  obtain ⟨config, index, old, new, hfirst, hchanges, -, -, hpricing⟩ :=
    hkept _ _ ⟨rfl, rfl, rfl, rfl, rfl⟩ hchange
  exact ⟨hreached, hchange, ⟨config, index, old, new, hfirst, hchanges, hpricing⟩,
    hsame _ 0 (overridden 0) rfl hlong ⟨by decide, by decide⟩ honly rfl rfl⟩

end Tariff
