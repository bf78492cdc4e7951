import Mathlib.Data.List.Permutation
import Tariff.Proofs.Stored
import Tariff.Remote.Options

/-!
# What is pushed is what is pulled

The options that hold a snapshot are two texts, and one of them holds the text of a value. The
settings service keeps them among options of its own, and lists them in any order.

* `configsOfValue_compact`, `saysYes_flag`: each of the two is read back.
* `foldlM_withOption`: options under other keys are skipped, wherever they stand.
* `Snapshot.options_give_snapshot_back`: whatever options surround the two, they are read as the
  snapshot.
-/

namespace Tariff

variable {snapshot start : Snapshot}

/-- Whether an option is one of the two that make up a snapshot. -/
def OptionEntry.isTiered (entry : OptionEntry) : Bool :=
  entry.key == enabledKey || entry.key == configsKey

theorem saysYes_flag (flag : Bool) :
    saysYes (.string (if flag then "true" else "false")) = flag := by
  cases flag <;> rfl

/-- The text of configurations that can be stored is read back; it is never blank. -/
theorem configsOfValue_compact {configs : Table TierConfig}
    (h : ∀ e ∈ configs.entries, e.2.Representable) :
    configsOfValue (.string (TierConfig.tableJson configs).compact) = .ok configs := by
  have hblank : Text.isBlankText (TierConfig.tableJson configs).compact = false := by
    unfold TierConfig.tableJson Json.ofTable Json.compact Text.isBlankText
    rw [String.toList_ofList]
    cases configs.entries.map fun e => (e.1, e.2.json) <;> rfl
  unfold configsOfValue
  dsimp only
  rw [hblank, if_neg (by decide), Json.decode_compact _ (TierConfig.fits_tableJson configs),
    TierConfig.readTable_tableJson h]

namespace Snapshot

theorem withOption_enabled (start : Snapshot) (flag : Bool) :
    start.withOption ⟨enabledKey, .string (if flag then "true" else "false")⟩ =
      .ok { start with enabled := flag } := by
  unfold withOption
  rw [if_pos rfl, saysYes_flag]

theorem withOption_configs (start : Snapshot) (h : snapshot.Representable) :
    start.withOption ⟨configsKey, .string (TierConfig.tableJson snapshot.configs).compact⟩ =
      .ok { start with configs := snapshot.configs } := by
  have hkey : configsKey ≠ enabledKey := by decide
  unfold withOption
  rw [if_neg hkey, if_pos rfl, configsOfValue_compact h]
  rfl

theorem withOption_other {entry : OptionEntry} (h : entry.isTiered = false) :
    start.withOption entry = .ok start := by
  unfold OptionEntry.isTiered at h
  rw [Bool.or_eq_false_iff, beq_eq_false_iff_ne, beq_eq_false_iff_ne] at h
  unfold withOption
  rw [if_neg h.1, if_neg h.2]

/-- Options under other keys are skipped. -/
theorem foldlM_withOption (entries : List OptionEntry) :
    entries.foldlM withOption start =
      (entries.filter OptionEntry.isTiered).foldlM withOption start := by
  induction entries generalizing start with
  | nil => rfl
  | cons entry entries ih =>
    rw [List.foldlM_cons]
    cases htiered : entry.isTiered with
    | true =>
      rw [List.filter_cons_of_pos htiered, List.foldlM_cons]
      exact congrArg _ (funext fun next => ih)
    | false =>
      rw [List.filter_cons_of_neg (Bool.eq_false_iff.mp htiered), withOption_other htiered]
      exact ih

theorem foldlM_withOption_pair {first second : OptionEntry} {between next : Snapshot}
    (hfirst : start.withOption first = .ok between)
    (hsecond : between.withOption second = .ok next) :
    [first, second].foldlM withOption start = .ok next := by
  rw [List.foldlM_cons, hfirst]
  show [second].foldlM withOption between = .ok next
  rw [List.foldlM_cons, hsecond]
  rfl

/-- The options of a snapshot that can be stored are read as that snapshot, in either order and
among any options under other keys. -/
theorem options_give_snapshot_back {entries : List OptionEntry} (h : snapshot.Representable)
    (hentries : (entries.filter OptionEntry.isTiered).Perm snapshot.options) :
    ofOptions entries = .ok snapshot := by
  unfold ofOptions
  rw [foldlM_withOption]
  rcases List.perm_pair.mp hentries with horder | horder
  · rw [horder]
    exact foldlM_withOption_pair (withOption_enabled _ _) (withOption_configs _ h)
  · rw [horder]
    exact foldlM_withOption_pair (withOption_configs _ h) (withOption_enabled _ _)

/-- A snapshot with a quote in a name, and a price on one side. -/
def quoted : Snapshot :=
  ⟨true, .single "so-called \"mini\"" ⟨true, ⟨[.exact "o1", .startingWith "o1-"]⟩, -1,
    [⟨"all", .unlimited, .absolute 0.0 2.5⟩]⟩⟩

/-- The options of a service: the configurations, one of its own, and the switch. -/
def quotedEntries : List OptionEntry :=
  [⟨configsKey, .string (TierConfig.tableJson quoted.configs).compact⟩,
    ⟨"QuotaPerUnit", .string "500000"⟩, ⟨enabledKey, .string "true"⟩]

theorem quoted_comes_back :
    quoted.Representable ∧ (quotedEntries.filter OptionEntry.isTiered).Perm quoted.options ∧
      ofOptions quotedEntries = .ok quoted := by
  have hprice : (Pricing.absolute 0.0 2.5).Representable := by
    refine ⟨by decide, fun input output heq => ?_⟩
    cases heq
    decide
  have hquoted : quoted.Representable := by
    intro e he
    rw [List.mem_singleton.mp he]
    refine ⟨⟨"o1,o1-*", rfl⟩, fun rule hrule => ?_⟩
    rw [List.mem_singleton.mp hrule]
    exact hprice
  have hentries : (quotedEntries.filter OptionEntry.isTiered).Perm quoted.options := by
    have hfilter : quotedEntries.filter OptionEntry.isTiered =
        [⟨configsKey, .string (TierConfig.tableJson quoted.configs).compact⟩,
          ⟨enabledKey, .string "true"⟩] := rfl
    rw [hfilter]
    exact .swap _ _ _
  exact ⟨hquoted, hentries, options_give_snapshot_back hquoted hentries⟩

end Snapshot

end Tariff
