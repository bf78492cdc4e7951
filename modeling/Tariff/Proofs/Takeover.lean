import Tariff.Proofs.Locality

/-!
# New configurations take over

A configuration that is added or copied gets a priority above all others, so a model that it applies
to is its own, and every other model stays where it was.

* `Snapshot.priority_lt_nextPriority`: the next priority is above all in use, as long as none of
  them is the largest that there is.
* `Snapshot.selected?_of_outranks`, `Snapshot.selected?_of_not_applies`: which models a new
  configuration takes.
* `new_config_takes_over_its_models`: the same of the two edits that make one.
-/

namespace Tariff

open Text

/-! ## Priorities -/

/-- Below the largest priority there is a larger one. -/
theorem lt_add_one_of_lt_maxValue {priority : Int64} (h : priority < Int64.maxValue) :
    priority < priority + 1 := by
  have hlow := priority.le_toInt
  have hhigh := Int64.lt_iff_toInt_lt.mp h
  rw [Int64.toInt_maxValue] at hhigh
  have hone : (1 : Int64).toInt = 1 := by decide
  rw [Int64.lt_iff_toInt_lt, Int64.toInt_add, hone, Int.bmod_eq_of_le (by omega) (by omega)]
  omega

theorem le_max_priority (a b : Int64) : a ≤ max a b ∧ b ≤ max a b := by
  have hmax : max a b = if a ≤ b then b else a := rfl
  grind

theorem max_priority_lt {a b c : Int64} (ha : a < c) (hb : b < c) : max a b < c := by
  have hmax : max a b = if a ≤ b then b else a := rfl
  grind

/-- The greatest priority of a list, and of a first one, is no smaller than any of them. -/
theorem le_greatest_priority (configs : List NamedConfig) (first : Int64) :
    first ≤ configs.foldl (fun greatest e => max greatest e.2.priority) first ∧
      ∀ e ∈ configs, e.2.priority ≤
        configs.foldl (fun greatest e => max greatest e.2.priority) first := by
  induction configs generalizing first with
  | nil => exact ⟨Int64.le_refl first, List.forall_mem_nil _⟩
  | cons e rest ih =>
    obtain ⟨hinit, hrest⟩ := ih (max first e.2.priority)
    obtain ⟨hleft, hright⟩ := le_max_priority first e.2.priority
    exact ⟨Int64.le_trans hleft hinit,
      List.forall_mem_cons.mpr ⟨Int64.le_trans hright hinit, hrest⟩⟩

/-- The greatest priority is below whatever all of them are below. -/
theorem greatest_priority_lt {configs : List NamedConfig} {first bound : Int64}
    (hfirst : first < bound) (h : ∀ e ∈ configs, e.2.priority < bound) :
    configs.foldl (fun greatest e => max greatest e.2.priority) first < bound := by
  induction configs generalizing first with
  | nil => exact hfirst
  | cons e rest ih =>
    obtain ⟨he, hrest⟩ := List.forall_mem_cons.mp h
    exact ih (max_priority_lt hfirst he) hrest

namespace Snapshot

variable {s : Snapshot} {model name : String} {config : TierConfig}

/-- The next priority is above all in use, those of disabled configurations included. -/
theorem priority_lt_nextPriority (h : ∀ e ∈ s.configs.entries, e.2.priority < Int64.maxValue) :
    ∀ e ∈ s.configs.entries, e.2.priority < s.nextPriority := by
  have hzero : (0 : Int64) < Int64.maxValue := by decide
  have hgreatest := lt_add_one_of_lt_maxValue (greatest_priority_lt hzero h)
  intro e he
  exact Int64.lt_of_le_of_lt ((le_greatest_priority s.configs.entries 0).2 e he) hgreatest

/-! ## Which models a new configuration takes -/

/-- A configuration of larger priority than all others takes every model that it applies to. -/
theorem selected?_of_outranks (hon : s.enabled = true) (hmodel : model ≠ "")
    (hrank : ∀ e ∈ s.configs.entries, e.2.priority < config.priority)
    (happlies : config.AppliesTo model) :
    (s.withConfig name config).selected? model = some (name, config) := by
  refine selected?_eq_some_iff.mpr ⟨hon, hmodel, ?_, happlies, fun other c hne hget _ => .inl ?_⟩
  · rw [get?_withConfig, if_pos rfl]
  · rw [get?_withConfig, if_neg hne] at hget
    exact hrank (other, c) (Table.mem_entries_iff.mpr hget)

/-- A configuration under a new name leaves every model that it does not apply to where it was. -/
theorem selected?_of_not_applies (hnew : s.configs.get? name = none)
    (happlies : ¬ config.AppliesTo model) :
    (s.withConfig name config).selected? model = s.selected? model := by
  refine (sameBut_withConfig s name config).selected?_eq (fun c hsel => ?_) fun c hsel => ?_
  · cases hnew.symm.trans (selected?_eq_some_iff.mp hsel).listed
  · have hlead := selected?_eq_some_iff.mp hsel
    have hlisted := hlead.listed
    rw [get?_withConfig, if_pos rfl, Option.some.injEq] at hlisted
    exact happlies (hlisted ▸ hlead.applies)

theorem get?_eq_none_of_not_contains (h : s.configs.contains name = false) :
    s.configs.get? name = none :=
  Option.not_isSome_iff_eq_none.mp (Bool.eq_false_iff.mp h)

end Snapshot

open Snapshot

/-- A configuration that is added takes over the models of its patterns, and a copy those that its
original applies to, with the rules of the original. All other models stay where they were; the copy
of a disabled configuration takes none. -/
theorem new_config_takes_over_its_models {s : Snapshot} {model : String} (hon : s.enabled = true)
    (hmodel : model ≠ "")
    (hpriorities : ∀ e ∈ s.configs.entries, e.2.priority < Int64.maxValue) :
    (∀ name models rules next, s.addConfig name models rules = .ok next →
      ∃ patterns, ModelPatterns.parse models = .ok patterns ∧
        (patterns.admits model = true → next.selected? model =
          some (trimmed name, ⟨true, patterns, s.nextPriority, rules.getD defaultRules⟩)) ∧
        (patterns.admits model = false → next.selected? model = s.selected? model)) ∧
    ∀ name next, s.copyConfig name = .ok next →
      ∃ original, s.configs.get? name = some original ∧
        (original.AppliesTo model →
          (∃ copy, next.selected? model = some (copyName name, copy) ∧
            copy.rules = original.rules ∧ copy.models = original.models ∧
            copy.enabled = original.enabled) ∧
          ∀ tokens, next.resolve? model tokens = (firstAdmitting? original.rules tokens).map
            fun rule => ⟨copyName name, rule.name, rule.pricing⟩) ∧
        (¬ original.AppliesTo model → next.selected? model = s.selected? model) := by
  have hrank := priority_lt_nextPriority hpriorities
  constructor
  · intro name models rules next h
    obtain ⟨-, hnew, patterns, hparse, rfl⟩ := addConfig_eq_ok h
    refine ⟨patterns, hparse, fun hadmits => ?_, fun hadmits => ?_⟩
    · exact selected?_of_outranks hon hmodel hrank ⟨rfl, hadmits⟩
    · refine selected?_of_not_applies (get?_eq_none_of_not_contains hnew) fun happlies => ?_
      exact Bool.eq_false_iff.mp hadmits happlies.2
  · intro name next h
    obtain ⟨original, hold, hnew, rfl⟩ := copyConfig_eq_ok h
    refine ⟨original, hold, fun happlies => ?_, fun happlies => ?_⟩
    · have hcopy := fun e he => Int64.lt_of_lt_of_le (hrank e he)
        (le_max_priority (original.priority + 1) s.nextPriority).2
      let copy : TierConfig :=
        { original with priority := max (original.priority + 1) s.nextPriority }
      have hsel : (s.withConfig (copyName name) copy).selected? model =
          some (copyName name, copy) := selected?_of_outranks hon hmodel hcopy happlies
      refine ⟨⟨copy, hsel, rfl, rfl, rfl⟩, fun tokens => ?_⟩
      unfold resolve?
      rw [hsel]
      rfl
    · exact selected?_of_not_applies (get?_eq_none_of_not_contains hnew) happlies

/-- In `tiedSnapshot` the largest priority is that of a disabled configuration, and the others are
below zero. A copy of the configuration that was tied out takes the model with the rules that it
has, and a configuration for another model leaves it where it was. -/
theorem copy_of_tied_config_leads :
    (∃ next copy, tiedSnapshot.copyConfig "b" = .ok next ∧
      next.selected? "m" = some ("b_copy", copy) ∧
      next.resolve? "m" ⟨20, 0⟩ = some ⟨"b_copy", "all", .ratio 2.0 1.0 none⟩) ∧
    ∃ next, tiedSnapshot.addConfig " new " "n*" none = .ok next ∧
      next.selected? "m" = tiedSnapshot.selected? "m" := by
  have hpriorities : ∀ e ∈ tiedSnapshot.configs.entries, e.2.priority < Int64.maxValue := by decide
  have hon : tiedSnapshot.enabled = true := rfl
  have hmodel : "m" ≠ "" := by decide
  obtain ⟨hadd, hcopy⟩ := new_config_takes_over_its_models hon hmodel hpriorities
  constructor
  · obtain ⟨original, hold, htakes, -⟩ := hcopy "b" _ rfl
    cases Option.some.inj hold
    obtain ⟨⟨copy, hsel, -⟩, hres⟩ := htakes ⟨rfl, by decide⟩
    exact ⟨_, copy, rfl, hsel, hres ⟨20, 0⟩⟩
  · obtain ⟨patterns, hparse, -, hkeeps⟩ := hadd " new " "n*" none _ rfl
    cases hparse
    exact ⟨_, rfl, hkeeps (by decide)⟩

end Tariff
