import Tariff.Command.Line
import Tariff.Proofs.Reload

/-!
# Fields that are given

A command line may give some fields of a rule. The others are those of the rule that the editor
replaces, or of a new one.

* `edit_eq_ok_iff`: the rule that the other fields are taken from.
* `RuleFields.isFinite_pricing`: finite numbers over finite numbers come to finite ones.
* `TierCommand.Storable`: a command of which a snapshot is made that can be stored.
-/

namespace Tariff

open Command

variable {s : Snapshot} {config rule : String} {given : RuleFields}

/-! ## The rule that is changed -/

/-- Fields are taken over from the rule at the place where the editor finds the name. -/
theorem edit_eq_ok_iff {edit : Edit} :
    given.edit s config rule = .ok edit ↔
      ∃ c index old, s.configs.get? config = some c ∧ c.ruleIndex? rule = some index ∧
        c.rules[index]? = some old ∧
        edit = .replaceRule config rule (given.apply old.draft) := by
  have hfound (old : Rule) :
      ((s.configs.get? config).bind fun c => c.rules.find? (·.name == rule)) = some old ↔
        ∃ c index, s.configs.get? config = some c ∧ c.ruleIndex? rule = some index ∧
          c.rules[index]? = some old := by
    simp only [Option.bind_eq_some_iff, List.find?_eq_bind_findIdx?_getElem?,
      TierConfig.ruleIndex?, exists_and_left]
  unfold RuleFields.edit
  cases hold : (s.configs.get? config).bind fun c => c.rules.find? (·.name == rule) with
  | none =>
    refine ⟨nofun, ?_⟩
    rintro ⟨c, index, old, hget, hindex, hrule, -⟩
    cases hold.symm.trans ((hfound old).mpr ⟨c, index, hget, hindex, hrule⟩)
  | some old =>
    obtain ⟨c, index, hget, hindex, hrule⟩ := (hfound old).mp hold
    constructor
    · intro h
      cases h
      exact ⟨c, index, old, hget, hindex, hrule, rfl⟩
    · rintro ⟨c', index', old', hget', hindex', hrule', rfl⟩
      cases hold.symm.trans ((hfound old').mpr ⟨c', index', hget', hindex', hrule'⟩)
      rfl

/-! ## Numbers that are given -/

/-- All numbers of a draft. -/
def DraftPricing.numbers : DraftPricing → List Float
  | ratio input completion output => input :: completion :: output.toList
  | price input output _ => [input, output]

/-- All numbers among given fields. -/
def RuleFields.numbers (given : RuleFields) : List Float :=
  given.ratio.toList ++ given.completion.toList ++ given.outputRatio.toList ++
    given.inputPrice.toList ++ given.outputPrice.toList

theorem mem_numbers_of_mem_entered {draft : DraftPricing} {x : Float} (h : x ∈ draft.entered) :
    x ∈ draft.numbers := by
  cases draft with
  | ratio input completion output => exact h
  | price input output asRatio =>
    cases asRatio with
    | true => cases h
    | false => exact h

theorem numbers_draft (rule : Rule) : rule.draft.pricing.numbers = rule.pricing.values := by
  unfold Rule.draft
  cases rule.pricing <;> rfl

theorem isFinite_getD {given : Option Float} {old : Float}
    (hgiven : ∀ x ∈ given.toList, x.isFinite = true) (hold : old.isFinite = true) :
    (given.getD old).isFinite = true := by
  cases given with
  | none => exact hold
  | some x => exact hgiven x List.mem_cons_self

/-- Finite fields over a draft of finite numbers make one of finite numbers. -/
theorem RuleFields.isFinite_pricing {old : DraftPricing}
    (hgiven : ∀ x ∈ given.numbers, x.isFinite = true)
    (hold : ∀ x ∈ old.numbers, x.isFinite = true) :
    ∀ x ∈ (given.pricing old).numbers, x.isFinite = true := by
  simp only [numbers, List.forall_mem_append] at hgiven
  obtain ⟨⟨⟨⟨hratio, hcompletion⟩, houtput⟩, hinputPrice⟩, houtputPrice⟩ := hgiven
  have hprices : (startPrices old).1.isFinite = true ∧ (startPrices old).2.isFinite = true := by
    cases old with
    | ratio input completion output => exact ⟨isFinite_zero, isFinite_zero⟩
    | price input output asRatio =>
      exact ⟨hold _ List.mem_cons_self, hold _ (List.mem_cons_of_mem _ List.mem_cons_self)⟩
  have hratios : (startRatios old).1.isFinite = true ∧ (startRatios old).2.1.isFinite = true ∧
      ∀ x ∈ (startRatios old).2.2.toList, x.isFinite = true := by
    cases old with
    | ratio input completion output =>
      simp only [DraftPricing.numbers, List.forall_mem_cons] at hold
      exact hold
    | price input output asRatio => exact ⟨isFinite_one, isFinite_one, List.forall_mem_nil _⟩
  unfold pricing
  split
  · simp only [DraftPricing.numbers, List.forall_mem_cons]
    exact ⟨isFinite_getD hinputPrice hprices.1, isFinite_getD houtputPrice hprices.2,
      List.forall_mem_nil _⟩
  · split
    · simp only [DraftPricing.numbers, List.forall_mem_cons]
      refine ⟨isFinite_getD hratio hratios.1, isFinite_getD hcompletion hratios.2.1, ?_⟩
      cases hnew : given.outputRatio with
      | some x =>
        rw [hnew] at houtput
        exact houtput
      | none =>
        split
        · exact List.forall_mem_nil _
        · exact hratios.2.2
    · exact hold

/-- What a command puts into a snapshot can be stored: its numbers are finite, and rules that it
brings along are read from a text. -/
def TierCommand.Storable : TierCommand → Prop
  | change (.edit edit) => edit.RulesAreRead ∧ ∀ x ∈ edit.entered, x.isFinite = true
  | change (.fields _ _ given) => ∀ x ∈ given.numbers, x.isFinite = true
  | _ => True

/-- The edit that a change stands for can be stored if what it starts from can. -/
theorem storable_of_toEdit {change : Change} {edit : Edit} (hs : s.Representable)
    (hchange : (TierCommand.change change).Storable) (h : change.toEdit s = .ok edit) :
    edit.RulesAreRead ∧ ∀ x ∈ edit.entered, x.isFinite = true := by
  cases change with
  | edit e =>
    cases h
    exact hchange
  | fields config rule given =>
    obtain ⟨c, index, old, hget, -, hold, rfl⟩ := edit_eq_ok_iff.mp h
    have hrule : old.pricing.Representable :=
      (hs.get? hget).rules old (List.mem_of_getElem? hold)
    have hdraft : ∀ x ∈ old.draft.pricing.numbers, x.isFinite = true := by
      rw [numbers_draft]
      exact hrule.finite
    refine ⟨fun _ _ _ heq => ?_, fun x hx => ?_⟩
    · cases heq
    · exact RuleFields.isFinite_pricing hchange hdraft x (mem_numbers_of_mem_entered hx)

end Tariff
