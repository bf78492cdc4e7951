import Mathlib.Data.List.Nodup
import Tariff.Edit.Audit
import Tariff.Proofs.Edit
import Tariff.Proofs.Pattern
import Tariff.Proofs.Table

/-!
# What every run of edits keeps

An edit trims the names that it is given and refuses those that are blank or taken, bounds that are
inverted, and patterns that cannot be read. Whatever edits make of a snapshot is therefore tidy.

* `IsName`, `Rule.Tidy`, `TidyRules`, `Snapshot.Tidy`: names without blanks around them, rules with
  names of their own, bounds that are not inverted, and patterns that can be read.
* `TidyRules.append`, `TidyRules.set`, `TidyRules.sublist`, `TidyRules.perm`: what edits do to
  rules.
* `Edit.tidy_apply`: one edit keeps a snapshot tidy. `Snapshot.Edited.tidy`: so does a run.
* `Snapshot.Tidy.issues`: what is left to mend in a tidy snapshot.
* `edits_keep_snapshots_tidy`: all of it.
-/

namespace Tariff

open Text

/-! ## Names -/

/-- A text that is not blank, with no blanks around it. -/
structure IsName (s : String) : Prop where
  not_blank : isBlankText s = false
  trimmed : Text.trimmed s = s

/-- What is left of a text that is not blank is a name. -/
theorem isName_trimmed {s : String} (h : isBlankText s = false) : IsName (trimmed s) := by
  refine ⟨?_, trimmed_trimmed s⟩
  rw [Bool.eq_false_iff] at *
  intro hblank
  rw [← trimmed_eq_empty_iff, trimmed_trimmed, trimmed_eq_empty_iff] at hblank
  exact h hblank

/-- The name of a copy is a name, as it starts like one and ends without a blank. -/
theorem IsName.copyName {s : String} (h : IsName s) : IsName (Snapshot.copyName s) := by
  have hlist : (Snapshot.copyName s).toList = s.toList ++ "_copy".toList := by
    simp [Snapshot.copyName]
  have htrim : trim s.toList = s.toList := by
    rw [← String.ofList_inj, String.ofList_toList]
    exact h.trimmed
  obtain ⟨c, rest, hcons, hc⟩ : ∃ c rest, s.toList = c :: rest ∧ isBlank c = false := by
    have hleft : trimLeft s.toList = s.toList := by
      rw [← htrim, trimLeft_trim]
    rw [← hleft]
    refine (trimLeft_cases s.toList).resolve_left fun hnil => ?_
    have hblank := h.not_blank
    unfold isBlankText at hblank
    rw [← hleft, hnil] at hblank
    cases hblank
  have hleft : trimLeft (s.toList ++ "_copy".toList) = s.toList ++ "_copy".toList := by
    rw [hcons, List.cons_append, trimLeft, List.dropWhile_cons_of_neg (by simp [hc])]
  have hright : trimRight (s.toList ++ "_copy".toList) = s.toList ++ "_copy".toList := by
    have hlast : isBlank 'y' = false := by decide
    simp [trimRight, hlast]
  refine ⟨?_, ?_⟩
  · simp [isBlankText, hlist, hcons, hc]
  · rw [Text.trimmed, hlist, trim, hleft, hright, ← hlist, String.ofList_toList]

/-! ## Rules -/

/-- The rule has a name and bounds that are not inverted, and it is not in dollars with both prices
zero. -/
structure Rule.Tidy (rule : Rule) : Prop where
  name : IsName rule.name
  input : rule.bounds.input.inverted = false
  output : rule.bounds.output.inverted = false
  priced : ∀ input output, rule.pricing = .absolute input output →
    ¬ (input == 0.0 && output == 0.0)

/-- All rules are tidy, and no two have one name. -/
structure TidyRules (rules : List Rule) : Prop where
  each : ∀ rule ∈ rules, rule.Tidy
  distinct : (rules.map (·.name)).Nodup

/-- The rules of the configuration are tidy, and each of its patterns is one that can be read. -/
structure TierConfig.Tidy (config : TierConfig) : Prop where
  rules : TidyRules config.rules
  patterns : ∀ p ∈ config.models.items,
    ∃ raw models, ModelPatterns.parse raw = .ok models ∧ p ∈ models.items

/-- All configurations of the snapshot have names and are tidy. -/
def Snapshot.Tidy (snapshot : Snapshot) : Prop :=
  ∀ e ∈ snapshot.configs.entries, IsName e.1 ∧ e.2.Tidy

namespace TidyRules

variable {rules rules' : List Rule} {rule : Rule}

theorem sublist (h : TidyRules rules) (hsub : rules'.Sublist rules) : TidyRules rules' :=
  ⟨fun rule hrule => h.each rule (hsub.mem hrule), h.distinct.sublist (hsub.map _)⟩

theorem perm (h : TidyRules rules) (hperm : rules'.Perm rules) : TidyRules rules' :=
  ⟨fun rule hrule => h.each rule (hperm.mem_iff.mp hrule), (hperm.map _).nodup_iff.mpr h.distinct⟩

theorem append (h : TidyRules rules) (hrule : rule.Tidy)
    (hnew : ∀ r ∈ rules, r.name ≠ rule.name) : TidyRules (rules ++ [rule]) := by
  refine ⟨fun r hr => ?_, ?_⟩
  · rcases List.mem_append.mp hr with hr | hr
    · exact h.each r hr
    · rw [List.mem_singleton.mp hr]
      exact hrule
  · rw [List.map_append, List.map_singleton, List.nodup_append]
    refine ⟨h.distinct, by simp, fun a ha b hb => ?_⟩
    obtain ⟨r, hr, rfl⟩ := List.mem_map.mp ha
    rw [List.mem_singleton.mp hb]
    exact hnew r hr

/-- A rule may take the place of another one under the name of that one, or under a new name. -/
theorem set {i : ℕ} (h : TidyRules rules) (hrule : rule.Tidy)
    (hnew : ∀ j r, rules[j]? = some r → r.name = rule.name → j = i) :
    TidyRules (rules.set i rule) := by
  refine ⟨fun r hr => ?_, ?_⟩
  · rcases List.mem_or_eq_of_mem_set hr with hr | rfl
    · exact h.each r hr
    · exact hrule
  · rw [List.map_set]
    by_cases hmem : rule.name ∈ rules.map (·.name)
    · -- The name is that of the rule in whose place the new one goes.
      obtain ⟨j, hj⟩ := List.mem_iff_getElem?.mp hmem
      obtain ⟨r, hr, hname⟩ := Option.map_eq_some_iff.mp (List.getElem?_map ▸ hj)
      obtain rfl := hnew j r hr hname
      have hself : (rules.map (·.name)).set j rule.name = rules.map (·.name) := by
        apply List.ext_getElem?
        intro k
        by_cases hk : j = k
        · subst hk
          rw [hj, List.getElem?_set_self (List.getElem?_eq_some_iff.mp hj).1]
        · rw [List.getElem?_set_ne hk]
      rw [hself]
      exact h.distinct
    · exact h.distinct.set hmem

end TidyRules

theorem tidyRules_defaultRules : TidyRules defaultRules := by
  have hnames : ∀ rule ∈ defaultRules,
      isBlankText rule.name = false ∧ trimmed rule.name = rule.name := by decide
  have hbounds : ∀ rule ∈ defaultRules,
      rule.bounds.input.inverted = false ∧ rule.bounds.output.inverted = false := by decide
  refine ⟨fun rule hrule => ?_, by decide⟩
  obtain ⟨hblank, htrimmed⟩ := hnames rule hrule
  obtain ⟨hinput, houtput⟩ := hbounds rule hrule
  refine ⟨⟨hblank, htrimmed⟩, hinput, houtput, fun input output heq => ?_⟩
  exact absurd heq (pricing_ne_absolute_of_mem_defaultRules hrule input output)

/-! ## Drafts -/

theorem TokenBounds.error?_eq_none_iff {bounds : TokenBounds} :
    bounds.error? = none ↔ bounds.input.inverted = false ∧ bounds.output.inverted = false := by
  unfold error?
  cases bounds.input.inverted <;> cases bounds.output.inverted <;> simp

/-- Prices of zero are never stored as prices. -/
theorem DraftPricing.priced_pricing (basis : Basis) (draft : DraftPricing) (input output : Float)
    (h : draft.pricing basis = .absolute input output) : ¬ (input == 0.0 && output == 0.0) := by
  unfold pricing at h
  split at h
  · cases h
  · cases h
  · split at h
    · cases h
    · rename_i hzero
      cases h
      exact hzero

variable {basis : Basis} {s next : Snapshot} {edit : Edit} {name : String} {config : TierConfig}

theorem RuleDraft.tidy_rule {draft : RuleDraft} {rule : Rule} (h : draft.rule basis = .ok rule) :
    rule.Tidy := by
  obtain ⟨hname, hbounds, rfl⟩ := RuleDraft.rule_eq_ok h
  obtain ⟨hinput, houtput⟩ := TokenBounds.error?_eq_none_iff.mp hbounds
  exact ⟨isName_trimmed hname, hinput, houtput, draft.pricing.priced_pricing basis⟩

/-! ## Edits -/

/-- Where a name does not clash, only the rule at the index may have it. -/
theorem TierConfig.eq_of_not_clashes {index : Option ℕ} {rule : String}
    (h : config.clashes index rule = false) {i : ℕ} {r : Rule} (hr : config.rules[i]? = some r)
    (hname : r.name = rule) : index = some i := by
  unfold clashes at h
  rw [List.any_eq_false] at h
  have hmem : (r, i) ∈ config.rules.zipIdx := by
    rw [List.mem_zipIdx_iff_getElem?]
    exact hr
  have hno := h (r, i) hmem
  simp only [hname, beq_self_eq_true, Bool.true_and, bne_iff_ne, ne_eq, Decidable.not_not] at hno
  exact hno.symm

/-- Putting a tidy rule keeps the rules tidy. -/
theorem TidyRules.putRule {index : Option ℕ} {rule : Rule} {config' : TierConfig}
    (h : TidyRules config.rules) (hrule : rule.Tidy)
    (hput : config.putRule name index rule = .ok config') : TidyRules config'.rules := by
  obtain ⟨hclash, ⟨rfl, rfl⟩ | ⟨i, rfl, -, rfl⟩⟩ := TierConfig.putRule_cases hput
  · refine h.append hrule fun r hr hname => ?_
    obtain ⟨i, hi⟩ := List.mem_iff_getElem?.mp hr
    cases TierConfig.eq_of_not_clashes hclash hi hname
  · refine h.set hrule fun j r hr hname => ?_
    exact (Option.some.inj (TierConfig.eq_of_not_clashes hclash hr hname)).symm

theorem TierConfig.Tidy.putRule {index : Option ℕ} {rule : Rule} {config' : TierConfig}
    (h : config.Tidy) (hrule : rule.Tidy) (hput : config.putRule name index rule = .ok config') :
    config'.Tidy :=
  ⟨h.rules.putRule hrule hput, by rw [models_putRule hput]; exact h.patterns⟩

/-- Rules that come with an edit are tidy. -/
def Edit.RulesAreTidy (edit : Edit) : Prop :=
  ∀ name models rules, edit = .addConfig name models (some rules) → TidyRules rules

theorem Snapshot.Tidy.get? (h : s.Tidy) (hget : s.configs.get? name = some config) :
    IsName name ∧ config.Tidy :=
  h (name, config) (Table.mem_entries_iff.mpr hget)

/-- What an edit puts into a tidy snapshot is tidy. -/
theorem Edit.Puts.tidy (h : edit.Puts basis s name config) (hs : s.Tidy)
    (hrules : edit.RulesAreTidy) : IsName name ∧ config.Tidy := by
  cases h with
  | @add name models rules patterns hname hnew hmodels =>
    have hblank : isBlankText name = false :=
      Bool.eq_false_iff.mpr fun hblank => hname (trimmed_eq_empty_iff.mpr hblank)
    refine ⟨isName_trimmed hblank, ?_, fun p hp => ⟨models, patterns, hmodels, hp⟩⟩
    cases rules with
    | none => exact tidyRules_defaultRules
    | some rules => exact hrules name models rules rfl
  | copy hold hnew =>
    obtain ⟨hname, hconfig⟩ := hs.get? hold
    exact ⟨hname.copyName, hconfig.rules, hconfig.patterns⟩
  | enable hold =>
    obtain ⟨hname, hconfig⟩ := hs.get? hold
    exact ⟨hname, hconfig.rules, hconfig.patterns⟩
  | priority hold =>
    obtain ⟨hname, hconfig⟩ := hs.get? hold
    exact ⟨hname, hconfig.rules, hconfig.patterns⟩
  | @models _ models patterns _ hmodels hold =>
    obtain ⟨hname, hconfig⟩ := hs.get? hold
    exact ⟨hname, hconfig.rules, fun p hp => ⟨models, patterns, hmodels, hp⟩⟩
  | put hdraft hold hput =>
    obtain ⟨hname, hconfig⟩ := hs.get? hold
    exact ⟨hname, hconfig.putRule (RuleDraft.tidy_rule hdraft) hput⟩
  | replace hindex hdraft hold hput =>
    obtain ⟨hname, hconfig⟩ := hs.get? hold
    exact ⟨hname, hconfig.putRule (RuleDraft.tidy_rule hdraft) hput⟩
  | remove hindex hold =>
    obtain ⟨hname, hconfig⟩ := hs.get? hold
    exact ⟨hname, hconfig.rules.sublist (List.eraseIdx_sublist ..), hconfig.patterns⟩
  | @move _ _ direction i config hindex hold =>
    obtain ⟨hname, hconfig⟩ := hs.get? hold
    obtain ⟨rules, hperm, hmove⟩ := config.perm_moveRule i direction
    rw [hmove]
    exact ⟨hname, hconfig.rules.perm hperm, hconfig.patterns⟩
  | reset hold =>
    obtain ⟨hname, hconfig⟩ := hs.get? hold
    exact ⟨hname, tidyRules_defaultRules, hconfig.patterns⟩

/-- An edit of a tidy snapshot leads to a tidy one. -/
theorem Edit.tidy_apply (h : edit.apply basis s = .ok next) (hs : s.Tidy)
    (hrules : edit.RulesAreTidy) : next.Tidy := by
  obtain ⟨enabled, -, rfl⟩ | ⟨removed, config, -, -, rfl⟩ | ⟨put, config, hputs, rfl⟩ :=
    apply_cases h
  · exact hs
  · intro e he
    exact hs e (List.mem_of_mem_filter he)
  · intro e he
    rcases Table.mem_place he with rfl | he
    · exact hputs.tidy hs hrules
    · exact hs e he

theorem Snapshot.tidy_empty : Snapshot.empty.Tidy := by
  intro e he
  cases he

/-- The snapshots that edits lead to from the one without configurations. -/
inductive Snapshot.Edited : Snapshot → Prop
  | empty : Edited .empty
  | edit {basis : Basis} {s next : Snapshot} {edit : Edit} (hs : Edited s)
      (hrules : edit.RulesAreTidy) (h : edit.apply basis s = .ok next) : Edited next

/-- Every run of edits leads to a tidy snapshot. -/
theorem Snapshot.Edited.tidy (h : s.Edited) : s.Tidy := by
  induction h with
  | empty => exact tidy_empty
  | edit _ hrules h ih => exact Edit.tidy_apply h ih hrules

/-! ## Issues -/

theorem TidyRules.ruleIssues {earlier rest : List Rule} {rule : Rule} {issue : Issue}
    (h : TidyRules (earlier ++ rule :: rest)) (hissue : issue ∈ ruleIssues name earlier rule) :
    ∃ label, issue = .value name label := by
  have hrule := h.each rule (by simp)
  have hnew : earlier.any (·.name == rule.name) = false := by
    rw [List.any_eq_false]
    intro r hr
    have hdistinct := h.distinct
    rw [List.map_append, List.map_cons, List.nodup_append] at hdistinct
    simpa using hdistinct.2.2 r.name (List.mem_map_of_mem hr) rule.name List.mem_cons_self
  have hbounds : rule.bounds.error? = none :=
    TokenBounds.error?_eq_none_iff.mpr ⟨hrule.input, hrule.output⟩
  unfold Tariff.ruleIssues at hissue
  simp only [hrule.name.not_blank, hnew, hbounds, Bool.false_eq_true, if_false, Option.toList_none,
    List.map_nil, List.nil_append] at hissue
  split at hissue
  · cases hissue
  · exact ⟨_, List.mem_singleton.mp hissue⟩

theorem TidyRules.rulesIssues {earlier rules : List Rule} {issue : Issue}
    (h : TidyRules (earlier ++ rules)) (hissue : issue ∈ rulesIssues name earlier rules) :
    ∃ label, issue = .value name label := by
  induction rules generalizing earlier with
  | nil => cases hissue
  | cons rule rest ih =>
    rcases List.mem_append.mp hissue with hissue | hissue
    · exact h.ruleIssues hissue
    · refine ih ?_ hissue
      rw [List.append_assoc]
      exact h

/-- What is left to mend in a tidy snapshot: configurations without models or without rules, and
numbers that are negative or none. -/
theorem Snapshot.Tidy.issues (h : s.Tidy) {issue : Issue} (hissue : issue ∈ s.issues) :
    ∃ name, issue = .noModels name ∨ issue = .noRules name ∨
      ∃ label, issue = .value name label := by
  obtain ⟨⟨name, config⟩, hmem, hissue⟩ := List.mem_flatMap.mp hissue
  obtain ⟨hname, hconfig⟩ := h (name, config) hmem
  refine ⟨name, ?_⟩
  unfold configIssues at hissue
  simp only [hname.not_blank, Bool.false_eq_true, if_false, List.nil_append] at hissue
  rcases List.mem_append.mp hissue with hissue | hissue
  · rcases List.mem_append.mp hissue with hissue | hissue
    · split at hissue
      · exact .inl (List.mem_singleton.mp hissue)
      · cases hissue
    · split at hissue
      · exact .inr (.inl (List.mem_singleton.mp hissue))
      · cases hissue
  · have hrules : TidyRules ([] ++ config.rules) := hconfig.rules
    exact .inr (.inr (hrules.rulesIssues hissue))

/-- The empty snapshot is tidy, and every edit of a tidy snapshot that succeeds leads to a tidy one.
So in whatever a run of edits leads to, only models, rules and the sizes of numbers are left to
mend. -/
theorem edits_keep_snapshots_tidy :
    Snapshot.empty.Tidy ∧
    (∀ (basis : Basis) (s next : Snapshot) (edit : Edit), s.Tidy → edit.RulesAreTidy →
      edit.apply basis s = .ok next → next.Tidy) ∧
    ∀ s : Snapshot, s.Edited → ∀ issue ∈ s.issues,
      ∃ name, issue = .noModels name ∨ issue = .noRules name ∨
        ∃ label, issue = .value name label := by
  refine ⟨Snapshot.tidy_empty, ?_, ?_⟩
  · intro basis s next edit hs hrules h
    exact Edit.tidy_apply h hs hrules
  · intro s hs issue hissue
    exact hs.tidy.issues hissue

/-- A configuration with or without a rule that costs less than nothing. -/
def refundSnapshot (rules : List Rule) : Snapshot :=
  ⟨false, .single "gpt" ⟨true, ⟨[.exact "gpt-4o", .startingWith "gpt-5"]⟩, 1, rules⟩⟩

/-- A configuration and a rule, added under names with blanks around them, are tidy. Of the price
below zero there is an issue. -/
theorem refund_is_tidy :
    (Edit.addConfig " gpt " "gpt-4o, ,gpt-5*" (some [])).apply (.ofQuotaPerUnit 0) .empty =
      .ok (refundSnapshot []) ∧
    (Edit.putRule "gpt" none ⟨" x ", .unlimited, .price (-1.0) 0.0 false⟩).apply (.ofQuotaPerUnit 0)
      (refundSnapshot []) = .ok (refundSnapshot [⟨"x", .unlimited, .absolute (-1.0) 0.0⟩]) ∧
    (refundSnapshot [⟨"x", .unlimited, .absolute (-1.0) 0.0⟩]).Tidy ∧
    (refundSnapshot [⟨"x", .unlimited, .absolute (-1.0) 0.0⟩]).issues = [.value "gpt" "x"] ∧
    ∃ name, Issue.value "gpt" "x" = .noModels name ∨ Issue.value "gpt" "x" = .noRules name ∨
      ∃ label, Issue.value "gpt" "x" = .value name label := by
  have hadd : (Edit.addConfig " gpt " "gpt-4o, ,gpt-5*" (some [])).apply (.ofQuotaPerUnit 0)
      .empty = .ok (refundSnapshot []) := by decide +kernel
  have hput : (Edit.putRule "gpt" none ⟨" x ", .unlimited, .price (-1.0) 0.0 false⟩).apply
      (.ofQuotaPerUnit 0) (refundSnapshot []) =
      .ok (refundSnapshot [⟨"x", .unlimited, .absolute (-1.0) 0.0⟩]) := by decide +kernel
  have hnone : (Edit.addConfig " gpt " "gpt-4o, ,gpt-5*" (some [])).RulesAreTidy := by
    rintro name models rules ⟨⟩
    exact ⟨by simp, by simp⟩
  have hdraft : (Edit.putRule "gpt" none
      ⟨" x ", .unlimited, .price (-1.0) 0.0 false⟩).RulesAreTidy := by
    rintro name models rules ⟨⟩
  have hissues : (refundSnapshot [⟨"x", .unlimited, .absolute (-1.0) 0.0⟩]).issues =
      [.value "gpt" "x"] := by decide +kernel
  obtain ⟨hempty, hstep, hrun⟩ := edits_keep_snapshots_tidy
  refine ⟨hadd, hput, hstep _ _ _ _ (hstep _ _ _ _ hempty hnone hadd) hdraft hput, hissues, ?_⟩
  refine hrun _ (.edit (.edit .empty hnone hadd) hdraft hput) _ ?_
  rw [hissues]
  exact List.mem_cons_self

end Tariff
