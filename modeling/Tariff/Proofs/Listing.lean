import Tariff.Proofs.Selection
import Tariff.Report.Tiers

/-!
# The list of configurations

The list shows all configurations, the disabled ones too, in the order in which the enabled ones
are tried.

* `Snapshot.filter_byPriority`: taking configurations out before sorting or after is the same.
* `Report.listedCells`, `Report.listLine`: a configuration as a row, and the row as a line.
  `Report.drop_listPage`: the lines behind the two at the top are the rows.
* `list_shows_order_of_trial`: what can be read off the list.
-/

namespace Tariff

instance (a b : NamedConfig) : Decidable (TriedBefore a b) :=
  inferInstanceAs (Decidable (_ ∨ _))

/-- Taking configurations out before sorting or after is the same, since names settle every tie. -/
theorem Snapshot.filter_byPriority {configs : List NamedConfig}
    (h : configs.Pairwise fun a b => a.1 < b.1) (p : NamedConfig → Bool) :
    (byPriority configs).filter p = byPriority (configs.filter p) := by
  have hperm : ((byPriority configs).filter p).Perm (byPriority (configs.filter p)) :=
    ((List.mergeSort_perm configs _).filter p).trans (List.mergeSort_perm _ _).symm
  refine hperm.eq_of_pairwise (fun a b _ _ hab hba => ?_) ((byPriority_pairwise h).filter p)
    (byPriority_pairwise (h.filter p))
  exact absurd hba (TriedBefore.asymm hab)

namespace Report

/-- The header of the list. -/
def listHeader : List String :=
  ["Config", "Priority", "Enabled", "Rules", "Models"]

/-- The row of a configuration. -/
def listedCells (listed : NamedConfig) : List String :=
  configCells listed.1 listed.2

/-- A row as a line of a list of rows. -/
def listLine (rows : List (List String)) (row : List String) : Line :=
  [plain gap, plain (rowText (widths listHeader rows) row)]

/-- Behind the switch and the header, or the line that says that there are no configurations, there
is a line for each configuration. -/
theorem drop_listPage {snapshot : Snapshot} {listed : List NamedConfig}
    (h : Snapshot.byPriority snapshot.configs.entries = listed) :
    (listPage snapshot).drop 2 =
      listed.map fun e => listLine (listed.map listedCells) (listedCells e) := by
  subst h
  unfold listPage
  cases hentries : snapshot.configs.entries with
  | nil =>
    rw [Snapshot.byPriority, List.mergeSort_nil]
    rfl
  | cons e rest => exact List.map_map ..

/-- The third cell says whether the configuration is enabled. -/
theorem enabled_listedCells (listed : NamedConfig) :
    ((listedCells listed)[2]? == some "yes") = listed.2.enabled := by
  show (some (if listed.2.enabled = true then "yes" else "no") == some "yes") = listed.2.enabled
  cases listed.2.enabled <;> decide

end Report

open Report

/-- Behind the first two lines of the list there is one row for each configuration, in the order in
which they would be tried. Of the rows whose third cell says that the configuration is enabled, the
first cells are the names of those that are tried, in that order; so a model is given to the first
configuration of the list that applies to it. -/
theorem list_shows_order_of_trial (snapshot : Snapshot) :
    ∃ listed : List NamedConfig,
      ((listPage snapshot).drop 2 =
        listed.map fun e => listLine (listed.map listedCells) (listedCells e)) ∧
      listed.Perm snapshot.configs.entries ∧ listed.Pairwise TriedBefore ∧
      ((listed.map listedCells).filter (·[2]? == some "yes")).map (·[0]?) =
        snapshot.candidates.map (some ·.1) ∧
      listed.filter (·.2.enabled) = snapshot.candidates ∧
      ∀ model, snapshot.enabled = true → model ≠ "" →
        snapshot.selected? model =
          listed.find? fun e => e.2.enabled && e.2.models.admits model := by
  have hcandidates : (Snapshot.byPriority snapshot.configs.entries).filter (·.2.enabled) =
      snapshot.candidates := Snapshot.filter_byPriority snapshot.configs.ascending _
  refine ⟨Snapshot.byPriority snapshot.configs.entries, drop_listPage rfl,
    List.mergeSort_perm _ _, byPriority_pairwise snapshot.configs.ascending, ?_, hcandidates,
    fun model hon hmodel => ?_⟩
  · rw [List.filter_map, List.map_map]
    simp only [Function.comp_def, enabled_listedCells, hcandidates]
    rfl
  · have hcond : (snapshot.enabled && model != "") = true := by simp [hon, hmodel]
    unfold Snapshot.selected?
    rw [if_pos hcond, ← hcandidates, List.find?_filter]
    simp only [← Bool.and_eq_true, Bool.decide_eq_true]

/-- The disabled configuration stands first, as its priority is the largest, and the two of equal
priority by name. Of these two, the first is the one that the model is given to. -/
theorem tied_configs_are_listed_by_name :
    ((listPage tiedSnapshot).drop 2).map (Line.text false) =
        ["  c       9         no       0      m", "  a       -3        yes      1      m*",
          "  b       -3        yes      1      m"] ∧
      (tiedSnapshot.selected? "m").map (·.1) = some "a" := by
  obtain ⟨listed, hlines, hperm, horder, -, -, hselected⟩ := list_shows_order_of_trial tiedSnapshot
  have hlisted : listed =
      [("c", ⟨false, ⟨[.exact "m"]⟩, 9, []⟩),
        ("a", ⟨true, ⟨[.startingWith "m"]⟩, -3,
          [⟨"short", ⟨⟨0, 10⟩, ⟨0, 0⟩⟩, .ratio 1.0 1.0 none⟩]⟩),
        ("b", ⟨true, ⟨[.exact "m"]⟩, -3, [⟨"all", .unlimited, .ratio 2.0 1.0 none⟩]⟩)] := by
    refine (hperm.trans ?_).eq_of_pairwise (fun a b _ _ hab hba => ?_) horder (by decide)
    · exact .trans (.cons _ (.swap _ _ _)) (.swap _ _ _)
    · exact absurd hba (TriedBefore.asymm hab)
  subst hlisted
  refine ⟨?_, ?_⟩
  · rw [hlines]
    decide +kernel
  · rw [hselected "m" rfl (by decide)]
    decide

end Tariff
