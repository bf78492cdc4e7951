import Mathlib.Data.List.Perm.Basic
import Tariff.Edit.Operation
import Tariff.Proofs.Results

/-!
# What an edit does

An edit switches tiered pricing, takes a configuration out, or puts one under a name.

* `Edit.Puts`: the configuration that an edit puts, and what it has checked before.
* `Edit.apply_cases`: an edit that succeeds does one of the three.
* `TierConfig.mem_putRule`, `TierConfig.perm_moveRule`: the rules after a rule is put or moved.
* `RuleDraft.rule_eq_ok`: the rule that a draft becomes.
-/

namespace Tariff

open Text

/-! ## Rules of a configuration -/

namespace TierConfig

variable {config next : TierConfig} {name : String} {index : Option ℕ} {rule : Rule}

/-- What putting a rule into a configuration comes to. -/
theorem putRule_cases (h : config.putRule name index rule = .ok next) :
    config.clashes index rule.name = false ∧
      ((index = none ∧ next = { config with rules := config.rules ++ [rule] }) ∨
        ∃ i, index = some i ∧ i < config.rules.length ∧
          next = { config with rules := config.rules.set i rule }) := by
  unfold putRule at h
  split at h
  · cases h
  · rename_i hclash
    refine ⟨Bool.eq_false_iff.mpr hclash, ?_⟩
    cases index with
    | none =>
      cases h
      exact .inl ⟨rfl, rfl⟩
    | some i =>
      dsimp only at h
      split at h
      · rename_i hi
        cases h
        exact .inr ⟨i, rfl, hi, rfl⟩
      · cases h

/-- The rule that is put is there, and all others were there before. -/
theorem mem_putRule (h : config.putRule name index rule = .ok next) :
    rule ∈ next.rules ∧ ∀ r ∈ next.rules, r = rule ∨ r ∈ config.rules := by
  obtain ⟨-, ⟨-, rfl⟩ | ⟨i, -, hi, rfl⟩⟩ := putRule_cases h
  · refine ⟨List.mem_append_right _ List.mem_cons_self, fun r hr => ?_⟩
    rcases List.mem_append.mp hr with hr | hr
    · exact .inr hr
    · exact .inl (List.mem_singleton.mp hr)
  · refine ⟨List.mem_set hi rule, fun r hr => ?_⟩
    exact (List.mem_or_eq_of_mem_set hr).symm

theorem models_putRule (h : config.putRule name index rule = .ok next) :
    next.models = config.models := by
  obtain ⟨-, ⟨-, rfl⟩ | ⟨i, -, hi, rfl⟩⟩ := putRule_cases h <;> rfl

theorem perm_swapNext {α : Type} (i : ℕ) (xs : List α) : (swapNext i xs).Perm xs := by
  fun_induction swapNext i xs with
  | case1 a b rest => exact .swap a b rest
  | case2 i a rest ih => exact ih.cons a
  | case3 => exact .refl _

/-- Moving a rule changes only the order of the rules. -/
theorem perm_moveRule (config : TierConfig) (i : ℕ) (direction : Direction) :
    ∃ rules, rules.Perm config.rules ∧
      config.moveRule i direction = { config with rules := rules } := by
  cases direction with
  | up =>
    unfold moveRule
    by_cases hi : i = 0
    · rw [if_pos hi]
      exact ⟨config.rules, .refl _, rfl⟩
    · rw [if_neg hi]
      exact ⟨_, perm_swapNext _ _, rfl⟩
  | down => exact ⟨_, perm_swapNext _ _, rfl⟩

end TierConfig

/-! ## Drafts and the template -/

/-- What a draft has to be like to become a rule, and which rule it becomes. -/
theorem RuleDraft.rule_eq_ok {draft : RuleDraft} {basis : Basis} {rule : Rule}
    (h : draft.rule basis = .ok rule) :
    isBlankText draft.name = false ∧ draft.bounds.error? = none ∧
      rule = ⟨trimmed draft.name, draft.bounds, draft.pricing.pricing basis⟩ := by
  unfold RuleDraft.rule at h
  split at h
  · cases h
  · rename_i hname
    split at h
    · cases h
    · rename_i hbounds
      cases h
      exact ⟨Bool.eq_false_iff.mpr hname, hbounds, rfl⟩

theorem pricing_ne_absolute_of_mem_defaultRules {rule : Rule} (h : rule ∈ defaultRules)
    (input output : Float) : rule.pricing ≠ .absolute input output := by
  have hratios : ∀ rule ∈ defaultRules, rule.pricing.isAbsolute = false := by decide
  intro heq
  have hratio := hratios rule h
  rw [heq] at hratio
  cases hratio

/-! ## Steps -/

/-- The configuration that an edit of a snapshot puts, under which name. -/
inductive Edit.Puts (basis : Basis) (s : Snapshot) : Edit → String → TierConfig → Prop
  | add {name models : String} {rules : Option (List Rule)} {patterns : ModelPatterns}
      (hname : trimmed name ≠ "") (hnew : s.configs.contains (trimmed name) = false)
      (hmodels : ModelPatterns.parse models = .ok patterns) :
      Puts basis s (.addConfig name models rules) (trimmed name)
        ⟨true, patterns, s.nextPriority, rules.getD defaultRules⟩
  | copy {name : String} {config : TierConfig} (hold : s.configs.get? name = some config)
      (hnew : s.configs.contains (Snapshot.copyName name) = false) :
      Puts basis s (.copyConfig name) (Snapshot.copyName name)
        { config with priority := max (config.priority + 1) s.nextPriority }
  | enable {name : String} {enabled : Bool} {config : TierConfig}
      (hold : s.configs.get? name = some config) :
      Puts basis s (.setConfigEnabled name enabled) name { config with enabled := enabled }
  | priority {name : String} {priority : Int64} {config : TierConfig}
      (hold : s.configs.get? name = some config) :
      Puts basis s (.setPriority name priority) name { config with priority := priority }
  | models {name models : String} {patterns : ModelPatterns} {config : TierConfig}
      (hmodels : ModelPatterns.parse models = .ok patterns)
      (hold : s.configs.get? name = some config) :
      Puts basis s (.setModels name models) name { config with models := patterns }
  | put {name : String} {index : Option ℕ} {draft : RuleDraft} {rule : Rule}
      {config next : TierConfig} (hdraft : draft.rule basis = .ok rule)
      (hold : s.configs.get? name = some config)
      (hput : config.putRule name index rule = .ok next) :
      Puts basis s (.putRule name index draft) name next
  | replace {name old : String} {i : ℕ} {draft : RuleDraft} {rule : Rule}
      {config next : TierConfig} (hindex : config.ruleIndex? old = some i)
      (hdraft : draft.rule basis = .ok rule) (hold : s.configs.get? name = some config)
      (hput : config.putRule name (some i) rule = .ok next) :
      Puts basis s (.replaceRule name old draft) name next
  | remove {name rule : String} {i : ℕ} {config : TierConfig}
      (hindex : config.ruleIndex? rule = some i) (hold : s.configs.get? name = some config) :
      Puts basis s (.removeRule name rule) name
        { config with rules := config.rules.eraseIdx i }
  | move {name rule : String} {direction : Direction} {i : ℕ} {config : TierConfig}
      (hindex : config.ruleIndex? rule = some i) (hold : s.configs.get? name = some config) :
      Puts basis s (.moveRule name rule direction) name (config.moveRule i direction)
  | reset {name : String} {config : TierConfig} (hold : s.configs.get? name = some config) :
      Puts basis s (.resetRules name) name { config with rules := defaultRules }

namespace Snapshot

variable {s next : Snapshot} {name : String}

theorem config_eq_ok_iff {config : TierConfig} :
    s.config name = .ok config ↔ s.configs.get? name = some config := by
  unfold Snapshot.config
  cases s.configs.get? name with
  | none =>
    constructor
    · rintro ⟨⟩
    · rintro ⟨⟩
  | some c => rw [Except.ok.injEq, Option.some.injEq]

theorem ruleIndex_eq_ok_iff {rule : String} {i : ℕ} :
    s.ruleIndex name rule = .ok i ↔
      ∃ config, s.configs.get? name = some config ∧ config.ruleIndex? rule = some i := by
  unfold Snapshot.ruleIndex
  rw [bind_eq_ok_iff]
  refine exists_congr fun config => and_congr config_eq_ok_iff ?_
  cases config.ruleIndex? rule with
  | none => exact ⟨nofun, nofun⟩
  | some j => exact ⟨fun h => by cases h; rfl, fun h => by cases h; rfl⟩

theorem change_eq_ok {f : TierConfig → Except EditError TierConfig}
    (h : s.change name f = .ok next) :
    ∃ config config', s.configs.get? name = some config ∧ f config = .ok config' ∧
      next = s.withConfig name config' := by
  obtain ⟨config, hconfig, h⟩ := bind_eq_ok_iff.mp h
  obtain ⟨config', hf, rfl⟩ := map_eq_ok_iff.mp h
  exact ⟨config, config', config_eq_ok_iff.mp hconfig, hf, rfl⟩

theorem parseModels_eq_ok {models : String} {patterns : ModelPatterns}
    (h : parseModels models = .ok patterns) : ModelPatterns.parse models = .ok patterns :=
  mapError_eq_ok_iff.mp h

theorem addConfig_eq_ok {models : String} {rules : Option (List Rule)}
    (h : s.addConfig name models rules = .ok next) :
    trimmed name ≠ "" ∧ s.configs.contains (trimmed name) = false ∧
      ∃ patterns, ModelPatterns.parse models = .ok patterns ∧
        next = s.withConfig (trimmed name)
          ⟨true, patterns, s.nextPriority, rules.getD defaultRules⟩ := by
  simp only [Snapshot.addConfig] at h
  by_cases hname : trimmed name = ""
  · rw [if_pos hname] at h
    cases h
  · rw [if_neg hname] at h
    by_cases hold : s.configs.contains (trimmed name) = true
    · rw [if_pos hold] at h
      cases h
    · rw [if_neg hold] at h
      obtain ⟨patterns, hmodels, rfl⟩ := map_eq_ok_iff.mp h
      exact ⟨hname, Bool.eq_false_iff.mpr hold, patterns, parseModels_eq_ok hmodels, rfl⟩

theorem copyConfig_eq_ok (h : s.copyConfig name = .ok next) :
    ∃ config, s.configs.get? name = some config ∧
      s.configs.contains (copyName name) = false ∧
      next = s.withConfig (copyName name)
        { config with priority := max (config.priority + 1) s.nextPriority } := by
  obtain ⟨config, hold, h⟩ := bind_eq_ok_iff.mp h
  by_cases hcopy : s.configs.contains (copyName name) = true
  · rw [if_pos hcopy] at h
    cases h
  · rw [if_neg hcopy] at h
    cases h
    exact ⟨config, config_eq_ok_iff.mp hold, Bool.eq_false_iff.mpr hcopy, rfl⟩

/-- A change at the place of a rule is a change of a configuration that has the rule. -/
theorem ruleIndex_change_eq_ok {rule : String} {f : ℕ → TierConfig → Except EditError TierConfig}
    (h : ((s.ruleIndex name rule).bind fun i => s.change name (f i)) = .ok next) :
    ∃ i config config', config.ruleIndex? rule = some i ∧ s.configs.get? name = some config ∧
      f i config = .ok config' ∧ next = s.withConfig name config' := by
  obtain ⟨i, hi, h⟩ := bind_eq_ok_iff.mp h
  obtain ⟨config, hold, hindex⟩ := ruleIndex_eq_ok_iff.mp hi
  obtain ⟨config₁, config', hold₁, hf, rfl⟩ := change_eq_ok h
  cases hold.symm.trans hold₁
  exact ⟨i, config, config', hindex, hold, hf, rfl⟩

end Snapshot

/-- An edit that succeeds switches tiered pricing, takes a configuration out, or puts one. -/
theorem Edit.apply_cases {basis : Basis} {s next : Snapshot} {edit : Edit}
    (h : edit.apply basis s = .ok next) :
    (∃ enabled, edit = .setEnabled enabled ∧ next = { s with enabled := enabled }) ∨
    (∃ name config, edit = .removeConfig name ∧ s.configs.get? name = some config ∧
      next = { s with configs := s.configs.erase name }) ∨
    ∃ name config, edit.Puts basis s name config ∧ next = s.withConfig name config := by
  cases edit with
  | setEnabled enabled =>
    cases h
    exact .inl ⟨enabled, rfl, rfl⟩
  | removeConfig name =>
    obtain ⟨config, hold, rfl⟩ := map_eq_ok_iff.mp h
    exact .inr (.inl ⟨name, config, rfl, Snapshot.config_eq_ok_iff.mp hold, rfl⟩)
  | addConfig name models rules =>
    obtain ⟨hname, hnew, patterns, hmodels, rfl⟩ := Snapshot.addConfig_eq_ok h
    exact .inr (.inr ⟨_, _, .add hname hnew hmodels, rfl⟩)
  | copyConfig name =>
    obtain ⟨config, hold, hnew, rfl⟩ := Snapshot.copyConfig_eq_ok h
    exact .inr (.inr ⟨_, _, .copy hold hnew, rfl⟩)
  | setConfigEnabled name enabled =>
    obtain ⟨config, _, hold, ⟨⟩, rfl⟩ := Snapshot.change_eq_ok h
    exact .inr (.inr ⟨_, _, .enable hold, rfl⟩)
  | setPriority name priority =>
    obtain ⟨config, _, hold, ⟨⟩, rfl⟩ := Snapshot.change_eq_ok h
    exact .inr (.inr ⟨_, _, .priority hold, rfl⟩)
  | setModels name models =>
    obtain ⟨patterns, hmodels, h⟩ := bind_eq_ok_iff.mp h
    obtain ⟨config, _, hold, ⟨⟩, rfl⟩ := Snapshot.change_eq_ok h
    exact .inr (.inr ⟨_, _, .models (Snapshot.parseModels_eq_ok hmodels) hold, rfl⟩)
  | putRule name index draft =>
    obtain ⟨rule, hdraft, h⟩ := bind_eq_ok_iff.mp h
    obtain ⟨config, config', hold, hput, rfl⟩ := Snapshot.change_eq_ok h
    exact .inr (.inr ⟨_, _, .put hdraft hold hput, rfl⟩)
  | replaceRule name old draft =>
    cases hdraft : draft.rule basis with
    | error error =>
      obtain ⟨i, -, h⟩ := bind_eq_ok_iff.mp h
      obtain ⟨rule, hrule, -⟩ := bind_eq_ok_iff.mp h
      cases hdraft.symm.trans hrule
    | ok rule =>
      simp only [apply, Snapshot.replaceRule, Snapshot.putRule, hdraft] at h
      obtain ⟨i, config, config', hindex, hold, hput, rfl⟩ := Snapshot.ruleIndex_change_eq_ok h
      exact .inr (.inr ⟨_, _, .replace hindex hdraft hold hput, rfl⟩)
  | removeRule name rule =>
    obtain ⟨i, config, _, hindex, hold, ⟨⟩, rfl⟩ := Snapshot.ruleIndex_change_eq_ok h
    exact .inr (.inr ⟨_, _, .remove hindex hold, rfl⟩)
  | moveRule name rule direction =>
    obtain ⟨i, config, _, hindex, hold, ⟨⟩, rfl⟩ := Snapshot.ruleIndex_change_eq_ok h
    exact .inr (.inr ⟨_, _, .move hindex hold, rfl⟩)
  | resetRules name =>
    obtain ⟨config, _, hold, ⟨⟩, rfl⟩ := Snapshot.change_eq_ok h
    exact .inr (.inr ⟨_, _, .reset hold, rfl⟩)

end Tariff
