import Tariff.Proofs.Move
import Tariff.Proofs.Takeover
import Tariff.Proofs.Ungiven

/-!
# Edits that are taken back

A configuration or a rule that was added is taken out again, and a rule that was moved is moved the
other way. The second edit looks its target up by name in what the first one made.

* `Snapshot.removeConfig_withConfig`, `Snapshot.ruleIndex_change_back`: what gives a snapshot back.
* `TierConfig.ruleIndex?_appended`, `TierConfig.ruleIndex?_swapNext`: where the target is found.
* `TierConfig.moveRule_moveRule`: neighbours that are exchanged twice are where they were.
* `constructive_edits_are_undone`: each of the edits with the one that takes it back.
-/

namespace Tariff

open Equiv (swap)
open Text

/-! ## Tables and snapshots -/

namespace Table

variable {α : Type}

/-- A new name can be taken out again. -/
theorem erase_insert {table : Table α} {name : String} (hnew : table.get? name = none) (value : α) :
    (table.insert name value).erase name = table := by
  refine ext_get? fun other => ?_
  rw [get?_erase, get?_insert]
  split
  · rename_i hother
    rw [hother, hnew]
  · rfl

/-- Of two values under one name the second counts. -/
theorem insert_insert (table : Table α) (name : String) (value value' : α) :
    (table.insert name value).insert name value' = table.insert name value' := by
  refine ext_get? fun other => ?_
  simp only [get?_insert]
  split <;> rfl

end Table

namespace Snapshot

variable {s : Snapshot} {name rule : String} {config config' : TierConfig} {i : ℕ}

/-- A configuration under a new name can be taken out again. -/
theorem removeConfig_withConfig (hnew : s.configs.get? name = none) (config : TierConfig) :
    (s.withConfig name config).removeConfig name = .ok s := by
  have hthere : (s.withConfig name config).config name = .ok config :=
    config_eq_ok_iff.mpr (by rw [get?_withConfig, if_pos rfl])
  unfold removeConfig
  rw [hthere]
  show Except.ok { s with configs := (s.configs.insert name config).erase name } = _
  rw [Table.erase_insert hnew]

/-- Of two configurations under one name the second counts. -/
theorem withConfig_withConfig (s : Snapshot) (name : String) (config config' : TierConfig) :
    (s.withConfig name config).withConfig name config' = s.withConfig name config' := by
  show { s with configs := (s.configs.insert name config).insert name config' } = _
  rw [Table.insert_insert]
  rfl

/-- A change at the place of a rule gives the snapshot back if it gives back the configuration. -/
theorem ruleIndex_change_back {f : ℕ → TierConfig → TierConfig}
    (hold : s.configs.get? name = some config) (hindex : config'.ruleIndex? rule = some i)
    (hback : f i config' = config) :
    (((s.withConfig name config').ruleIndex name rule).bind fun i =>
      (s.withConfig name config').change name fun c => .ok (f i c)) = .ok s := by
  have hthere : (s.withConfig name config').configs.get? name = some config' := by
    rw [get?_withConfig, if_pos rfl]
  refine bind_eq_ok_iff.mpr ⟨i, ruleIndex_eq_ok_iff.mpr ⟨config', hthere, hindex⟩, ?_⟩
  refine bind_eq_ok_iff.mpr ⟨config', config_eq_ok_iff.mpr hthere, ?_⟩
  show Except.ok ((s.withConfig name config').withConfig name (f i config')) = _
  rw [hback, withConfig_withConfig, withConfig_self hold]

end Snapshot

/-! ## Places of rules -/

/-- Neighbours that are exchanged twice are where they were. -/
theorem swapNext_swapNext {α : Type} (i : ℕ) (xs : List α) : swapNext i (swapNext i xs) = xs := by
  by_cases hi : i + 1 < xs.length
  · have hlength : (swapNext i xs).length = xs.length := (TierConfig.perm_swapNext i xs).length_eq
    refine List.ext_getElem? fun k => ?_
    rw [getElem?_swapNext (hlength ▸ hi), getElem?_swapNext hi, Equiv.swap_apply_self]
  · rw [swapNext_of_le (not_lt.mp hi), swapNext_of_le (not_lt.mp hi)]

/-- The other way. -/
def Direction.opposite : Direction → Direction
  | up => down
  | down => up

namespace TierConfig

variable {config : TierConfig} {rule : String} {index i : ℕ}

/-- A rule under a name of its own is found behind those that were there. -/
theorem ruleIndex?_appended {new : Rule} (hroom : config.HasRoomFor none new.name) :
    { config with rules := config.rules ++ [new] }.ruleIndex? new.name =
      some config.rules.length := by
  refine ruleIndex?_eq_some_iff.mpr ⟨new, by simp, rfl, fun i r hi hr hname => ?_⟩
  rw [List.getElem?_append_left hi] at hr
  cases hroom i r hr hname

/-- After two neighbours were exchanged, a rule is found where it went, unless it is the first of
them and the other one has its name. -/
theorem ruleIndex?_swapNext (hi : i + 1 < config.rules.length)
    (hindex : config.ruleIndex? rule = some index)
    (hother : index = i → ∀ r, config.rules[i + 1]? = some r → r.name ≠ rule) :
    { config with rules := swapNext i config.rules }.ruleIndex? rule =
      some (swap i (i + 1) index) := by
  have hfirst : config.rules.findIdx? (·.name == rule) = some index := hindex
  have hmap := findIdx?_swapNext (p := (·.name == rule)) hi fun r hhit hr => ?_
  · rw [hfirst] at hmap
    obtain ⟨place, hplace, rfl⟩ := Option.map_eq_some_iff.mp hmap
    rw [Equiv.swap_apply_self]
    exact hplace
  · have hsame : index = i := Option.some.inj (hfirst.symm.trans hhit)
    exact beq_eq_false_iff_ne.mpr (hother hsame r hr)

/-- A rule that was exchanged with its neighbour is exchanged with it again from where it went. -/
theorem moveRule_moveRule {direction : Direction}
    (hi : config.exchangedAt? index direction = some i) :
    { config with rules := swapNext i config.rules }.moveRule (swap i (i + 1) index)
      direction.opposite = config := by
  cases direction with
  | up =>
    have hi : (if index = 0 then none else some (index - 1)) = some i := hi
    split at hi
    · cases hi
    · cases hi
      have hplace : swap (index - 1) (index - 1 + 1) index = index - 1 := by
        rw [Nat.sub_add_cancel (by omega), Equiv.swap_apply_right]
      rw [hplace]
      show { config with rules := swapNext _ (swapNext (index - 1) config.rules) } = config
      rw [swapNext_swapNext]
  | down =>
    have hi : (if index + 1 < config.rules.length then some index else none) = some i := hi
    split at hi
    · cases hi
      rw [Equiv.swap_apply_left]
      show { config with rules := swapNext index (swapNext index config.rules) } = config
      rw [swapNext_swapNext]
    · cases hi

end TierConfig

/-- A move that exchanges two neighbours is taken back by the one the other way, unless the rule is
the first of the two and the other one has its name. -/
theorem Snapshot.moveRule_opposite {s : Snapshot} {name rule : String} {config : TierConfig}
    {index i : ℕ} {direction : Direction} (hold : s.configs.get? name = some config)
    (hindex : config.ruleIndex? rule = some index)
    (hi : config.exchangedAt? index direction = some i)
    (hother : index = i → ∀ r, config.rules[i + 1]? = some r → r.name ≠ rule) :
    (s.withConfig name (config.moveRule index direction)).moveRule name rule direction.opposite =
      .ok s := by
  obtain ⟨old, hfirst⟩ := TierConfig.ruleIndex?_eq_some_iff.mp hindex
  obtain ⟨hlt, -⟩ := List.getElem?_eq_some_iff.mp hfirst.at_index
  obtain ⟨hnone, -⟩ | ⟨j, hj, hlast, hmove⟩ := TierConfig.moveRule_cases hlt direction
  · cases hnone.symm.trans hi
  · cases hj.symm.trans hi
    rw [hmove]
    exact ruleIndex_change_back hold (TierConfig.ruleIndex?_swapNext hlast hindex hother)
      (TierConfig.moveRule_moveRule hi)

/-- A configuration that was added or copied is taken out again under the name that it got, and a
rule that was appended under its trimmed name. A rule that was moved up from a place that is not the
first is moved down again; one that was moved down from a place that is not the last is moved up
again if no two rules of the configuration have one name. Each time the second edit succeeds, and
gives the snapshot back. -/
theorem constructive_edits_are_undone (basis basis' : Basis) (s : Snapshot) :
    (∀ name models rules next, (Edit.addConfig name models rules).apply basis s = .ok next →
      (Edit.removeConfig (trimmed name)).apply basis' next = .ok s) ∧
    (∀ name next, (Edit.copyConfig name).apply basis s = .ok next →
      (Edit.removeConfig (Snapshot.copyName name)).apply basis' next = .ok s) ∧
    (∀ name draft next, (Edit.putRule name none draft).apply basis s = .ok next →
      (Edit.removeRule name (trimmed draft.name)).apply basis' next = .ok s) ∧
    (∀ name rule next, (Edit.moveRule name rule .up).apply basis s = .ok next →
      ∃ config index old, s.configs.get? name = some config ∧
        FirstNamed config.rules rule index old ∧
        (0 < index → (Edit.moveRule name rule .down).apply basis' next = .ok s)) ∧
    ∀ name rule next, (Edit.moveRule name rule .down).apply basis s = .ok next →
      ∃ config index old, s.configs.get? name = some config ∧
        FirstNamed config.rules rule index old ∧
        (index + 1 < config.rules.length → (config.rules.map (·.name)).Nodup →
          (Edit.moveRule name rule .up).apply basis' next = .ok s) := by
  refine ⟨fun name models rules next h => ?_, fun name next h => ?_, fun name draft next h => ?_,
    fun name rule next h => ?_, fun name rule next h => ?_⟩
  · obtain ⟨-, hnew, patterns, -, rfl⟩ := Snapshot.addConfig_eq_ok h
    exact Snapshot.removeConfig_withConfig (Snapshot.get?_eq_none_of_not_contains hnew) _
  · obtain ⟨config, -, hnew, rfl⟩ := Snapshot.copyConfig_eq_ok h
    exact Snapshot.removeConfig_withConfig (Snapshot.get?_eq_none_of_not_contains hnew) _
  · obtain ⟨config, hold, -, hfree, rfl⟩ := Snapshot.putRule_eq_ok_iff.mp h
    have hroom : config.HasRoomFor none (trimmed draft.name) := by
      simpa [TierConfig.putFaults] using hfree
    refine Snapshot.ruleIndex_change_back hold (TierConfig.ruleIndex?_appended hroom) ?_
    have herase : (config.rules ++ [draft.kept basis]).eraseIdx config.rules.length =
        config.rules := by simp [List.eraseIdx_append_of_length_le]
    show { config with rules := (config.rules ++ [draft.kept basis]).eraseIdx _ } = config
    rw [herase]
  · obtain ⟨index, config, _, hindex, hold, ⟨⟩, rfl⟩ := Snapshot.ruleIndex_change_eq_ok h
    obtain ⟨old, hfirst⟩ := TierConfig.ruleIndex?_eq_some_iff.mp hindex
    refine ⟨config, index, old, hold, hfirst, fun hpos => ?_⟩
    have hexchanged : config.exchangedAt? index .up = some (index - 1) := if_neg hpos.ne'
    exact Snapshot.moveRule_opposite hold hindex hexchanged fun hsame => by omega
  · obtain ⟨index, config, _, hindex, hold, ⟨⟩, rfl⟩ := Snapshot.ruleIndex_change_eq_ok h
    obtain ⟨old, hfirst⟩ := TierConfig.ruleIndex?_eq_some_iff.mp hindex
    refine ⟨config, index, old, hold, hfirst, fun hlast hdistinct => ?_⟩
    refine Snapshot.moveRule_opposite hold hindex (if_pos hlast) fun _ r hr hname => ?_
    have hne := List.nodup_iff_getElem?_ne_getElem?.mp hdistinct index (index + 1) (by omega)
      (by simpa using hlast)
    rw [List.getElem?_map, List.getElem?_map, hfirst.at_index, hr] at hne
    exact hne (congrArg some (hfirst.named.trans hname.symm))

/-- A draft with blanks around its name. -/
def draftOfX : RuleDraft := ⟨" x ", .unlimited, .ratio 1.0 2.0 none⟩

/-- What was added under names with blanks is taken out again under what is left of them. Of three
rules the last is moved up and down again, and the first down and up. -/
theorem edits_of_tied_configs_are_undone :
    (∃ next, (Edit.addConfig " new " "n*" none).apply (.ofQuotaPerUnit 0) tiedSnapshot = .ok next ∧
      (Edit.removeConfig "new").apply (.ofQuotaPerUnit 1) next = .ok tiedSnapshot) ∧
    (∃ next, (Edit.copyConfig "c").apply (.ofQuotaPerUnit 0) tiedSnapshot = .ok next ∧
      (Edit.removeConfig "c_copy").apply (.ofQuotaPerUnit 1) next = .ok tiedSnapshot) ∧
    (∃ next, (Edit.putRule "b" none draftOfX).apply (.ofQuotaPerUnit 0) tiedSnapshot =
        .ok next ∧
      (Edit.removeRule "b" "x").apply (.ofQuotaPerUnit 1) next = .ok tiedSnapshot) ∧
    (∃ next, (Edit.moveRule "gpt" "cheap" .up).apply (.ofQuotaPerUnit 0)
        (refundSnapshot shortThenAll) = .ok next ∧
      (Edit.moveRule "gpt" "cheap" .down).apply (.ofQuotaPerUnit 1) next =
        .ok (refundSnapshot shortThenAll)) ∧
    ∃ next, (Edit.moveRule "gpt" "short" .down).apply (.ofQuotaPerUnit 0)
        (refundSnapshot shortThenAll) = .ok next ∧
      (Edit.moveRule "gpt" "short" .up).apply (.ofQuotaPerUnit 1) next =
        .ok (refundSnapshot shortThenAll) := by
  obtain ⟨hadd, hcopy, hput, -, -⟩ :=
    constructive_edits_are_undone (.ofQuotaPerUnit 0) (.ofQuotaPerUnit 1) tiedSnapshot
  obtain ⟨-, -, -, hup, hdown⟩ := constructive_edits_are_undone (.ofQuotaPerUnit 0)
    (.ofQuotaPerUnit 1) (refundSnapshot shortThenAll)
  have hplace {config : TierConfig} {rule : String} {index : ℕ} {old : Rule}
      (hget : (refundSnapshot shortThenAll).configs.get? "gpt" = some config)
      (hfirst : FirstNamed config.rules rule index old) :
      config.rules = shortThenAll ∧ shortThenAll.findIdx? (·.name == rule) = some index := by
    cases Option.some.inj hget
    exact ⟨rfl, TierConfig.ruleIndex?_eq_some_iff.mpr ⟨old, hfirst⟩⟩
  have hname : trimmed " new " = "new" := by decide
  have hrule : trimmed draftOfX.name = "x" := by decide
  refine ⟨⟨_, rfl, hname ▸ hadd " new " "n*" none _ rfl⟩, ⟨_, rfl, hcopy "c" _ rfl⟩,
    ⟨_, rfl, hrule ▸ hput "b" draftOfX _ rfl⟩, ⟨_, rfl, ?_⟩, ⟨_, rfl, ?_⟩⟩
  · obtain ⟨config, index, old, hget, hfirst, hback⟩ := hup "gpt" "cheap" _ rfl
    obtain ⟨-, hindex⟩ := hplace hget hfirst
    cases hindex
    exact hback (by decide)
  · obtain ⟨config, index, old, hget, hfirst, hback⟩ := hdown "gpt" "short" _ rfl
    obtain ⟨hrules, hindex⟩ := hplace hget hfirst
    cases hindex
    rw [hrules] at hback
    exact hback (by decide) (by decide)

/-- Two rules of one name. -/
def twinRules : List Rule :=
  [⟨"x", .unlimited, .ratio 1.0 1.0 none⟩, ⟨"x", .unlimited, .ratio 2.0 1.0 none⟩]

/-- Of two rules of one name, the first one is moved down. The other one is then the first, and is
not moved up any further. -/
example :
    (Edit.moveRule "gpt" "x" .down).apply (.ofQuotaPerUnit 0) (refundSnapshot twinRules) =
        .ok (refundSnapshot twinRules.reverse) ∧
      (Edit.moveRule "gpt" "x" .up).apply (.ofQuotaPerUnit 0) (refundSnapshot twinRules.reverse) =
        .ok (refundSnapshot twinRules.reverse) := ⟨rfl, rfl⟩

end Tariff
