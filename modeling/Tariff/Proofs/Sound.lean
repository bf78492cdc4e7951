import Tariff.Command.Exchange
import Tariff.Proofs.FromFloat
import Tariff.Proofs.Tidy
import Tariff.Proofs.Unlisted

/-!
# Snapshots without issues

The issues of a snapshot are found in one walk along its configurations and their rules, with the
rules that are already passed at hand. There are none exactly if the snapshot is sound, and only
then is it handed over to the settings service.

* `Pricing.Sound`, `Rule.Sound`, `TierConfig.Sound`, `Snapshot.Sound`: what there is nothing to mend
  in.
* `Rule.exists_admits_iff`: bounds have no fault exactly if some request lies in them.
* `AllNew`: what walks along named things look for. `walk_eq_nil_iff`: when they find nothing.
* `ruleIssues_eq_nil_iff`, `rulesIssues_eq_nil_iff`, `configIssues_eq_nil_iff`: the walk along
  configurations and rules.
* `only_sound_snapshots_have_no_issues`: what it comes to, and what comes of it.
-/

namespace Tariff

open Number Text

/-! ## Soundness -/

/-- The number is finite and not below zero. -/
structure IsSize (x : Float) : Prop where
  finite : x.isFinite = true
  not_negative : ¬ x < 0.0

/-- All numbers that the pricing keeps are sizes. -/
def Pricing.Sound : Pricing → Prop
  | .ratio input completion output => IsSize input ∧ IsSize completion ∧ ∀ x ∈ output, IsSize x
  | .absolute input output => IsSize input ∧ IsSize output

/-- The rule has a name and sizes, and it is for some request. -/
structure Rule.Sound (rule : Rule) : Prop where
  named : isBlankText rule.name = false
  admits : ∃ tokens, rule.admits tokens = true
  pricing : rule.pricing.Sound

/-- The configuration has models if it is enabled, and sound rules of different names. -/
structure TierConfig.Sound (config : TierConfig) : Prop where
  models : config.enabled = true → config.models.items ≠ []
  rules : config.rules ≠ []
  each : ∀ rule ∈ config.rules, rule.Sound
  distinct : (config.rules.map (·.name)).Nodup

/-- All configurations of the snapshot have names and are sound. -/
def Snapshot.Sound (snapshot : Snapshot) : Prop :=
  ∀ e ∈ snapshot.configs.entries, isBlankText e.1 = false ∧ e.2.Sound

/-! ## Walks along named things -/

section NamedWalk

variable {α β : Type} {P : α → Prop} {name : α → String} {earlier xs : List α}

/-- All of a list are as they should be, and have names that are neither repeated nor among the
earlier ones. -/
structure AllNew (P : α → Prop) (name : α → String) (earlier xs : List α) : Prop where
  each : ∀ x ∈ xs, P x
  distinct : (xs.map name).Nodup
  unused : ∀ x ∈ xs, ∀ y ∈ earlier, name y ≠ name x

theorem allNew_nil : AllNew P name earlier [] :=
  ⟨List.forall_mem_nil _, List.nodup_nil, List.forall_mem_nil _⟩

theorem allNew_cons_iff {x : α} :
    AllNew P name earlier (x :: xs) ↔
      (P x ∧ ∀ y ∈ earlier, name y ≠ name x) ∧ AllNew P name (earlier ++ [x]) xs := by
  constructor
  · rintro ⟨heach, hdistinct, hunused⟩
    rw [List.forall_mem_cons] at heach hunused
    rw [List.map_cons, List.nodup_cons] at hdistinct
    refine ⟨⟨heach.1, hunused.1⟩, heach.2, hdistinct.2, fun z hz y hy heq => ?_⟩
    -- An earlier element is one from before the list, or its first.
    rcases List.mem_append.mp hy with hy | hy
    · exact hunused.2 z hz y hy heq
    · rw [List.mem_singleton.mp hy] at heq
      exact hdistinct.1 (heq ▸ List.mem_map_of_mem hz)
  · rintro ⟨⟨hx, hnew⟩, heach, hdistinct, hunused⟩
    refine ⟨List.forall_mem_cons.mpr ⟨hx, heach⟩, ?_, List.forall_mem_cons.mpr ⟨hnew, ?_⟩⟩
    · rw [List.map_cons, List.nodup_cons]
      refine ⟨fun hmem => ?_, hdistinct⟩
      obtain ⟨z, hz, heq⟩ := List.mem_map.mp hmem
      exact hunused z hz x (List.mem_append_right _ List.mem_cons_self) heq.symm
    · exact fun z hz y hy => hunused z hz y (List.mem_append_left _ hy)

/-- A walk that looks at each element with the earlier ones at hand finds nothing, if at each it
finds nothing exactly where the element is as it should be and has a name of its own. -/
theorem walk_eq_nil_iff {walk : List α → List α → List β} {issues : List α → α → List β}
    (hnil : ∀ earlier, walk earlier [] = [])
    (hcons : ∀ earlier x xs, walk earlier (x :: xs) = issues earlier x ++ walk (earlier ++ [x]) xs)
    (hissues : ∀ earlier x, issues earlier x = [] ↔ P x ∧ ∀ y ∈ earlier, name y ≠ name x) :
    walk earlier xs = [] ↔ AllNew P name earlier xs := by
  induction xs generalizing earlier with
  | nil => exact iff_of_true (hnil earlier) allNew_nil
  | cons x xs ih => rw [hcons, List.append_eq_nil_iff, hissues, ih, allNew_cons_iff]

end NamedWalk

/-! ## Rules -/

theorem isAmount_iff_isSize {x : Float} : isAmount x = true ↔ IsSize x :=
  isAmount_iff.trans ⟨fun h => ⟨h.1, h.2⟩, fun h => ⟨h.1, h.2⟩⟩

theorem Pricing.all_isAmount_iff {pricing : Pricing} :
    pricing.values.all isAmount = true ↔ pricing.Sound := by
  rw [List.all_eq_true]
  cases pricing with
  | ratio input completion output =>
    simp only [values, Sound, List.forall_mem_cons, Option.mem_toList, Option.mem_def,
      isAmount_iff_isSize]
  | absolute input output =>
    simp [values, Sound, isAmount_iff_isSize]

/-- A range that is not inverted contains its smallest count. -/
theorem TokenRange.exists_contains_iff {range : TokenRange} :
    (∃ count, range.Contains count) ↔ range.inverted = false := by
  unfold inverted
  rw [Bool.and_eq_false_iff, decide_eq_false_iff_not, decide_eq_false_iff_not]
  constructor
  · rintro ⟨count, hmin, hmax⟩
    grind
  · intro h
    exact ⟨range.min, .inr (by grind), by grind⟩

/-- Bounds have no fault exactly if some request lies in them. -/
theorem Rule.exists_admits_iff {rule : Rule} :
    (∃ tokens, rule.admits tokens = true) ↔ rule.bounds.error? = none := by
  rw [TokenBounds.error?_eq_none_iff, ← TokenRange.exists_contains_iff,
    ← TokenRange.exists_contains_iff]
  constructor
  · rintro ⟨tokens, hadmits⟩
    obtain ⟨hinput, houtput⟩ := Rule.admits_iff.mp hadmits
    exact ⟨⟨_, hinput⟩, _, houtput⟩
  · rintro ⟨⟨input, hinput⟩, output, houtput⟩
    exact ⟨⟨input, output⟩, Rule.admits_iff.mpr ⟨hinput, houtput⟩⟩

section Walk

variable {name : String} {earlier rules : List Rule} {rule : Rule}

/-- A rule has no issues exactly if it is sound and none before it has its name. Blank names are no
issue of repetition, but they are one by themselves. -/
theorem ruleIssues_eq_nil_iff :
    ruleIssues name earlier rule = [] ↔ rule.Sound ∧ ∀ r ∈ earlier, r.name ≠ rule.name := by
  have hvalues := rule.pricing.all_isAmount_iff
  have hbounds := rule.exists_admits_iff
  have hnew : earlier.any (·.name == rule.name) = true ↔ ¬ ∀ r ∈ earlier, r.name ≠ rule.name := by
    simp
  unfold ruleIssues
  dsimp only
  rw [List.append_eq_nil_iff, List.append_eq_nil_iff, List.map_eq_nil_iff,
    Option.toList_eq_nil_iff, ← hbounds]
  -- Repetition is looked for only behind a name that is not blank, so the splits nest.
  constructor
  · rintro ⟨⟨hname, hadmits⟩, hsizes⟩
    split at hname
    · cases hname
    · rename_i hnamed
      split at hname
      · cases hname
      · rename_i hdistinct
        split at hsizes
        · rename_i hall
          exact ⟨⟨Bool.eq_false_iff.mpr hnamed, hadmits, hvalues.mp hall⟩,
            not_not.mp fun hold => hdistinct (hnew.mpr hold)⟩
        · cases hsizes
  · rintro ⟨⟨hnamed, hadmits, hsizes⟩, hdistinct⟩
    rw [if_neg (Bool.eq_false_iff.mp hnamed), if_neg fun hold => hnew.mp hold hdistinct,
      if_pos (hvalues.mpr hsizes)]
    exact ⟨⟨rfl, hadmits⟩, rfl⟩

/-- The walk along rules finds nothing exactly if they are sound and all names differ, those of the
rules that are already passed included. -/
theorem rulesIssues_eq_nil_iff :
    rulesIssues name earlier rules = [] ↔ AllNew Rule.Sound (·.name) earlier rules :=
  walk_eq_nil_iff (fun _ => rfl) (fun _ _ _ => rfl) fun _ _ => ruleIssues_eq_nil_iff

end Walk

/-! ## Configurations and snapshots -/

theorem configIssues_eq_nil_iff {name : String} {config : TierConfig} :
    configIssues name config = [] ↔ isBlankText name = false ∧ config.Sound := by
  unfold configIssues
  rw [List.append_eq_nil_iff, List.append_eq_nil_iff, List.append_eq_nil_iff,
    rulesIssues_eq_nil_iff]
  constructor
  · rintro ⟨⟨⟨hname, hmodels⟩, hrules⟩, hall⟩
    refine ⟨by simpa using hname, ?_, by simpa using hrules, hall.each, hall.distinct⟩
    simpa using hmodels
  · rintro ⟨hname, hsound⟩
    have hmodels := hsound.models
    have hrules := hsound.rules
    refine ⟨⟨⟨by simpa using hname, by simpa using hmodels⟩, by simpa using hrules⟩, hsound.each,
      hsound.distinct, fun _ _ r hr => ?_⟩
    cases hr

/-- There is nothing to mend in a snapshot exactly if it is sound. -/
theorem Snapshot.issues_eq_nil_iff {snapshot : Snapshot} :
    snapshot.issues = [] ↔ snapshot.Sound := by
  unfold issues Sound
  rw [List.flatMap_eq_nil_iff]
  exact forall₂_congr fun e _ => configIssues_eq_nil_iff

/-- What is handed over ends well, a refusal does not. -/
theorem Context.exit_of_push {context : Context} {env : Environment} {service : Service}
    {pricing : Contents} {snapshot : Snapshot} {endpoint : Endpoint} {outcome : Outcome}
    (hendpoint : context.setup.remote.endpoint env = .ok endpoint)
    (hload : Snapshot.load pricing = .ok snapshot) (hissues : snapshot.issues = [])
    (h : context.push env service pricing = .ok outcome) : outcome.exit = 0 := by
  unfold push at h
  rw [hendpoint, snapshot_of_load hload] at h
  change (if (!snapshot.issues.isEmpty) = true then _ else _) = _ at h
  rw [hissues, if_neg (by decide)] at h
  obtain ⟨-, -, houtcome⟩ := bind_eq_ok_iff.mp h
  cases houtcome
  split
  · rfl
  · rfl

/-- Whatever the service would say, tiered pricing is refused exactly if there is something to
mend. -/
theorem Context.push_eq_refusal_iff {context : Context} {env : Environment} (service : Service)
    {pricing : Contents} {snapshot : Snapshot} {endpoint : Endpoint}
    (hendpoint : context.setup.remote.endpoint env = .ok endpoint)
    (hload : Snapshot.load pricing = .ok snapshot) :
    context.push env service pricing = .ok (refusal snapshot.issues) ↔ snapshot.issues ≠ [] := by
  constructor
  · intro h hissues
    cases exit_of_push hendpoint hload hissues h
  · intro hissues
    unfold push
    rw [hendpoint, snapshot_of_load hload]
    exact if_pos (by simpa using hissues)

/-- There is nothing to mend in a snapshot exactly if all its configurations have names, models if
they are enabled, and rules; and if their rules have names of their own, are for some request, and
keep finite numbers that are not below zero. Such a snapshot is not refused when it is to be handed
over to the settings service, and every other is, whatever the service would say. -/
theorem only_sound_snapshots_have_no_issues (snapshot : Snapshot) :
    (snapshot.issues = [] ↔ snapshot.Sound) ∧
    ∀ (context : Context) (env : Environment) (service : Service) (pricing : Contents)
      (endpoint : Endpoint),
      context.setup.remote.endpoint env = .ok endpoint → Snapshot.load pricing = .ok snapshot →
      (context.push env service pricing = .ok (Context.refusal snapshot.issues) ↔
        ¬ snapshot.Sound) := by
  refine ⟨Snapshot.issues_eq_nil_iff, ?_⟩
  intro context env service pricing endpoint hendpoint hload
  rw [Context.push_eq_refusal_iff service hendpoint hload]
  exact Snapshot.issues_eq_nil_iff.not

/-- A service that keeps every option. -/
def takesAll : Service := fun _ => some ⟨200, (Json.object [("success", .bool true)]).compact⟩

/-- The context of a user who exchanges tiered pricing. -/
def exchanging : Context :=
  ⟨{ Setup.blank with
    remote := ⟨some "https://gateway.example.com/", "TIERPRICE_ACCESS_TOKEN", none⟩ },
    "config.toml", "pricing.json", ⟨false, false, false, false⟩⟩

/-- An enabled configuration without models and without rules. -/
def bareGpt : Snapshot := ⟨true, .single "gpt" ⟨true, .empty, 1, []⟩⟩

/-- A bare configuration is refused to a service that would take it, and no configurations at all
are taken. -/
theorem empty_gpt_is_refused :
    ∃ endpoint, exchanging.setup.remote.endpoint = .ok endpoint ∧
      (Snapshot.load (.text bareGpt.toText) = .ok bareGpt ∧ ¬ bareGpt.Sound ∧
        exchanging.push (fun _ => none) takesAll (.text bareGpt.toText) =
          .ok (Context.refusal [.noModels "gpt", .noRules "gpt"])) ∧
      Snapshot.load .missing = .ok .empty ∧ Snapshot.empty.Sound ∧
        exchanging.push (fun _ => none) takesAll .missing =
          .ok (.answered ["Pushed 0 tier configs from pricing.json"]) := by
  have hendpoint : exchanging.setup.remote.endpoint =
      .ok ⟨"https://gateway.example.com", none, none⟩ := by decide +kernel
  have hrepresentable : bareGpt.Representable := by
    intro e he
    rw [List.mem_singleton.mp he]
    exact ⟨⟨"", rfl⟩, List.forall_mem_nil _⟩
  have hload : Snapshot.load (.text bareGpt.toText) = .ok bareGpt :=
    mapError_eq_ok_iff.mpr (Snapshot.ofText_toText hrepresentable)
  have hissues : bareGpt.issues = [.noModels "gpt", .noRules "gpt"] := by decide
  obtain ⟨hsound, hpush⟩ := only_sound_snapshots_have_no_issues bareGpt
  have hunsound : ¬ bareGpt.Sound := by
    rw [← hsound, hissues]
    nofun
  have hempty : Snapshot.empty.Sound :=
    (only_sound_snapshots_have_no_issues .empty).1.mp rfl
  refine ⟨_, hendpoint, ⟨hload, hunsound, ?_⟩, rfl, hempty, by decide +kernel⟩
  rw [← hissues]
  exact (hpush _ _ _ _ _ hendpoint hload).mpr hunsound

end Tariff
