import Tariff.Command.Run
import Tariff.Proofs.Sound

/-!
# Setups without issues

The issues of a setup are found in one walk along its preferences, the multipliers of its groups,
its models and its endpoint. Models are looked at with those in front of them at hand, as their
names must differ. There are no issues exactly if the setup is sound.

* `ModelRecord.Sound`, `Setup.Sound`: what there is nothing to mend in.
* `Preferences.issues_eq_nil_iff`, `groupIssues_eq_nil_iff`, `recordIssues_eq_nil_iff`: the parts of
  the walk. `Setup.issues_eq_nil_iff`: the whole.
* `Invocation.exit_check`: what the inspection of both files ends with.
* `only_sound_setups_have_no_issues`: what the walk comes to, and what comes of it.
-/

namespace Tariff

open Text

/-! ## Soundness -/

/-- The record has a name and sizes, and is for groups of the table, or for any. -/
structure ModelRecord.Sound (groups : GroupTable) (record : ModelRecord) : Prop where
  named : isBlankText record.name = false
  ratio : IsSize record.ratio
  completion : IsSize record.completion
  price : IsSize record.price
  groups : ∀ group ∈ record.groups, group = "auto" ∨ groups.contains group = true

/-- The preferences are among those that there are, the multipliers are sizes, the models are sound
and of different names, and the endpoint may be used if there is one. -/
structure Setup.Sound (setup : Setup) : Prop where
  format : setup.preferences.format = "text" ∨ setup.preferences.format = "json"
  color : setup.preferences.color = "auto" ∨ setup.preferences.color = "always" ∨
    setup.preferences.color = "never"
  quota : setup.preferences.quotaPerUnit ≠ 0
  groups : ∀ e ∈ setup.groups.entries, IsSize e.2
  models : ∀ record ∈ setup.models, record.Sound setup.groups
  distinct : (setup.models.map (·.name)).Nodup
  endpoint : ∀ url ∈ setup.remote.baseUrl, endpointFault? url = none

/-! ## The walk -/

theorem Preferences.issues_eq_nil_iff {preferences : Preferences} :
    preferences.issues = [] ↔
      (preferences.format = "text" ∨ preferences.format = "json") ∧
      (preferences.color = "auto" ∨ preferences.color = "always" ∨ preferences.color = "never") ∧
      preferences.quotaPerUnit ≠ 0 := by
  unfold issues
  rw [List.append_eq_nil_iff, List.append_eq_nil_iff, and_assoc]
  simp [formatNames, colorNames, or_iff_not_imp_left]

theorem groupIssues_eq_nil_iff {groups : GroupTable} :
    groupIssues groups = [] ↔ ∀ e ∈ groups.entries, IsSize e.2 := by
  unfold groupIssues
  rw [List.map_eq_nil_iff, List.filter_eq_nil_iff]
  simp only [Bool.not_eq_true', Bool.not_eq_false, isAmount_iff_isSize]

/-- A record has no issues exactly if it is sound and none before it has its name. A blank name is
an issue by itself, so it does not matter which names come before it. -/
theorem recordIssues_eq_nil_iff {groups : GroupTable} {earlier : List ModelRecord}
    {record : ModelRecord} :
    recordIssues groups earlier record = [] ↔
      record.Sound groups ∧ ∀ r ∈ earlier, r.name ≠ record.name := by
  unfold recordIssues
  by_cases hblank : isBlankText record.name = true
  · rw [if_pos hblank]
    refine iff_of_false (List.cons_ne_nil _ _) fun h => ?_
    rw [h.1.named] at hblank
    cases hblank
  · have hnew : (if earlier.any (·.name == record.name) then
        [SetupIssue.duplicateModel record.name] else []) = [] ↔
        ∀ r ∈ earlier, r.name ≠ record.name := by simp
    have hsizes : (if [record.ratio, record.completion, record.price].all isAmount then []
        else [SetupIssue.modelValue record.name]) = [] ↔
        IsSize record.ratio ∧ IsSize record.completion ∧ IsSize record.price := by
      simp [← isAmount_iff_isSize]
    have hgroups : (record.groups.filter fun group =>
        !groups.contains group && group != autoGroup).map (SetupIssue.unknownGroup record.name) =
          [] ↔ ∀ group ∈ record.groups, group = "auto" ∨ groups.contains group = true := by
      rw [List.map_eq_nil_iff, List.filter_eq_nil_iff]
      refine forall₂_congr fun group _ => ?_
      simp [autoGroup, or_iff_not_imp_right]
    rw [if_neg hblank, List.append_eq_nil_iff, List.append_eq_nil_iff, hnew, hsizes, hgroups]
    constructor
    · rintro ⟨⟨hdistinct, hratio, hcompletion, hprice⟩, hknown⟩
      exact ⟨⟨Bool.eq_false_iff.mpr hblank, hratio, hcompletion, hprice, hknown⟩, hdistinct⟩
    · rintro ⟨hsound, hdistinct⟩
      exact ⟨⟨hdistinct, hsound.ratio, hsound.completion, hsound.price⟩, hsound.groups⟩

theorem recordsIssues_eq_nil_iff {groups : GroupTable} {earlier records : List ModelRecord} :
    recordsIssues groups earlier records = [] ↔
      AllNew (·.Sound groups) (·.name) earlier records :=
  walk_eq_nil_iff (fun _ => rfl) (fun _ _ _ => rfl) fun _ _ => recordIssues_eq_nil_iff

/-- There is nothing to mend in a setup exactly if it is sound. -/
theorem Setup.issues_eq_nil_iff {setup : Setup} : setup.issues = [] ↔ setup.Sound := by
  have hendpoint : (setup.remote.baseUrl.bind endpointFault?).toList.map SetupIssue.endpoint = [] ↔
      ∀ url ∈ setup.remote.baseUrl, endpointFault? url = none := by
    rw [List.map_eq_nil_iff, Option.toList_eq_nil_iff, Option.bind_eq_none_iff]
    rfl
  unfold issues
  rw [List.append_eq_nil_iff, List.append_eq_nil_iff, List.append_eq_nil_iff,
    Preferences.issues_eq_nil_iff, groupIssues_eq_nil_iff, recordsIssues_eq_nil_iff, hendpoint]
  constructor
  · rintro ⟨⟨⟨⟨hformat, hcolor, hquota⟩, hgroups⟩, hall⟩, hurl⟩
    exact ⟨hformat, hcolor, hquota, hgroups, hall.each, hall.distinct, hurl⟩
  · intro h
    exact ⟨⟨⟨⟨h.format, h.color, h.quota⟩, h.groups⟩, h.models, h.distinct,
      fun _ _ _ hr => by cases hr⟩, h.endpoint⟩

/-! ## The inspection of both files -/

namespace Inspection

theorem issuesOfSetup_eq_nil_iff {loaded : Except LoadError Setup} :
    issuesOfSetup loaded = [] ↔ ∃ setup, loaded = .ok setup ∧ setup.Sound := by
  cases loaded with
  | error cause => exact iff_of_false (List.cons_ne_nil _ _) (by simp)
  | ok setup => simp [issuesOfSetup, Setup.issues_eq_nil_iff]

theorem issuesOfSnapshot_eq_nil_iff {loaded : Except LoadError Snapshot} :
    issuesOfSnapshot loaded = [] ↔ ∃ snapshot, loaded = .ok snapshot ∧ snapshot.Sound := by
  cases loaded with
  | error cause => exact iff_of_false (List.cons_ne_nil _ _) (by simp)
  | ok snapshot => simp [issuesOfSnapshot, Snapshot.issues_eq_nil_iff]

end Inspection

/-- The inspection ends with an error unless there is nothing to mend; that a file is missing is
only remarked. -/
theorem Invocation.exit_check {invocation : Invocation} {env : Environment}
    {look : String → Contents} {options : OutputOptions} :
    (invocation.check env look options).exit = 0 ↔
      (invocation.inspection env look).setupIssues = [] ∧
        (invocation.inspection env look).pricingIssues = [] := by
  have hremark (path : String) (contents : Contents) :
      (Inspection.missingRemark path contents).exit = 0 := by
    unfold Inspection.missingRemark
    split <;> rfl
  show max (Inspection.missingRemark _ _).exit (if Inspection.isClean _ then 0 else 1) = 0 ↔ _
  rw [hremark, Nat.zero_max]
  unfold Inspection.isClean
  rw [← List.isEmpty_iff, ← List.isEmpty_iff, ← Bool.and_eq_true]
  split
  · rename_i hclean
    exact iff_of_true rfl hclean
  · rename_i hclean
    exact iff_of_false (by decide) hclean

/-- There is nothing to mend in a setup exactly if its preferences are among those that there are,
all its multipliers, ratios and prices are finite and not below zero, its models have names of their
own and are for groups that have a multiplier or for any, and its endpoint may be used if there is
one. The inspection of a file that holds such a setup succeeds if the tiered pricing that goes with
it can be loaded and is sound, too, and that of a file with any other setup does not. -/
theorem only_sound_setups_have_no_issues (setup : Setup) :
    (setup.issues = [] ↔ setup.Sound) ∧
    ∀ (invocation : Invocation) (env : Environment) (look : String → Contents)
      (options : OutputOptions), Setup.load (look (invocation.setupPath env)) = .ok setup →
      ((invocation.check env look options).exit = 0 ↔
        setup.Sound ∧ ∃ snapshot,
          Snapshot.load (look (invocation.pricingPath env setup)) = .ok snapshot ∧
            snapshot.Sound) := by
  refine ⟨Setup.issues_eq_nil_iff, fun invocation env look options hload => ?_⟩
  have hsetup : (invocation.inspection env look).setupIssues = [] ↔ setup.Sound := by
    refine Inspection.issuesOfSetup_eq_nil_iff.trans ?_
    rw [hload]
    simp
  have hpath : invocation.pricingPathFor env (look (invocation.setupPath env)) =
      invocation.pricingPath env setup := by
    unfold Invocation.pricingPathFor
    rw [hload]
    rfl
  have hpricing : (invocation.inspection env look).pricingIssues = [] ↔
      ∃ snapshot, Snapshot.load (look (invocation.pricingPath env setup)) = .ok snapshot ∧
        snapshot.Sound := by
    rw [← hpath]
    exact Inspection.issuesOfSnapshot_eq_nil_iff
  rw [Invocation.exit_check, hsetup, hpricing]

/-- A model for any group, and for one without a multiplier. -/
def strayGroup : Setup :=
  { Setup.blank with models := [{ ModelRecord.blank "m" with groups := ["auto", "vip"] }] }

/-- The inspection of a file with that setup fails. -/
theorem stray_group_is_an_issue :
    Setup.load (.text "[[models]]\nmodel_name = 'm'\nenable_groups = ['auto', 'vip']\n") =
        .ok strayGroup ∧
      strayGroup.issues ≠ [] ∧
      ∀ (flags : OutputFlags) (env : Environment) (options : OutputOptions),
        (Invocation.check ⟨.setup .check, flags, some "config.toml", none⟩ env
          (fun _ => .text "[[models]]\nmodel_name = 'm'\nenable_groups = ['auto', 'vip']\n")
          options).exit ≠ 0 := by
  have hload : Setup.load
      (.text "[[models]]\nmodel_name = 'm'\nenable_groups = ['auto', 'vip']\n") =
        .ok strayGroup := by decide +kernel
  obtain ⟨hissues, hcheck⟩ := only_sound_setups_have_no_issues strayGroup
  have hunsound : ¬ strayGroup.Sound := by
    intro h
    have hgroups := (h.models _ List.mem_cons_self).groups "vip" (by decide)
    revert hgroups
    decide
  refine ⟨hload, fun h => hunsound (hissues.mp h), fun flags env options hexit => hunsound ?_⟩
  exact ((hcheck ⟨.setup .check, flags, some "config.toml", none⟩ env _ options hload).mp hexit).1

end Tariff
