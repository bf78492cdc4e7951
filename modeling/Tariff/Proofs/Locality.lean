import Tariff.Proofs.Edit
import Tariff.Proofs.Selection

/-!
# Edits are local

An edit of one configuration can take a model away from it or give it one. Between the others the
choice stays as it was.

* `Edit.target?`: the name of the configuration that an edit is about.
* `Snapshot.SameBut`: two snapshots with one switch and the same configurations, but for one name.
  `Edit.sameBut_apply`: an edit leads from a snapshot to such a one.
* `Snapshot.SameBut.selected?_eq`: a model that neither snapshot gives to that name has the same
  configuration in both, wherever the configuration of that name lands in the order.
* `edit_keeps_resolution_of_others`: such a model resolves as before the edit.
-/

namespace Tariff

open Text

/-- The name of the configuration that an edit is about: of a new one, the name that it gets. The
switch is about none. -/
def Edit.target? : Edit → Option String
  | setEnabled _ => none
  | addConfig name _ _ => some (trimmed name)
  | copyConfig name => some (Snapshot.copyName name)
  | removeConfig name => some name
  | setConfigEnabled name _ => some name
  | setPriority name _ => some name
  | setModels name _ => some name
  | putRule config _ _ => some config
  | replaceRule config _ _ => some config
  | removeRule config _ => some config
  | moveRule config _ _ => some config
  | resetRules config => some config

theorem Edit.Puts.target {basis : Basis} {s : Snapshot} {edit : Edit} {name : String}
    {config : TierConfig} (h : edit.Puts basis s name config) : edit.target? = some name := by
  cases h <;> rfl

/-- Two snapshots have one switch and the same configurations, but for those of one name. -/
structure Snapshot.SameBut (name : String) (s t : Snapshot) : Prop where
  enabled : t.enabled = s.enabled
  others : ∀ other, other ≠ name → t.configs.get? other = s.configs.get? other

theorem Snapshot.get?_withConfig (s : Snapshot) (name : String) (config : TierConfig)
    (other : String) :
    (s.withConfig name config).configs.get? other =
      if other = name then some config else s.configs.get? other :=
  Table.get?_insert s.configs name config other

theorem Snapshot.sameBut_withConfig (s : Snapshot) (name : String) (config : TierConfig) :
    SameBut name s (s.withConfig name config) :=
  ⟨rfl, fun other hne => by rw [get?_withConfig, if_neg hne]⟩

/-- An edit leaves all configurations as they are but the one that it is about. -/
theorem Edit.sameBut_apply {basis : Basis} {s next : Snapshot} {edit : Edit} {name : String}
    (h : edit.apply basis s = .ok next) (htarget : edit.target? = some name) :
    Snapshot.SameBut name s next := by
  obtain ⟨enabled, rfl, -⟩ | ⟨removed, config, rfl, -, rfl⟩ | ⟨put, config, hputs, rfl⟩ :=
    apply_cases h
  · cases htarget
  · cases htarget
    refine ⟨rfl, fun other hne => ?_⟩
    rw [Table.get?_erase, if_neg hne]
  · cases hputs.target.symm.trans htarget
    exact s.sameBut_withConfig name config

namespace Snapshot

variable {s t : Snapshot} {model name other : String} {config : TierConfig}

theorem SameBut.symm (h : SameBut name s t) : SameBut name t s :=
  ⟨h.enabled.symm, fun other hne => (h.others other hne).symm⟩

/-- Where tiered pricing is on, a model that some configuration applies to is given to one. -/
theorem exists_leads (henabled : s.enabled = true) (hmodel : model ≠ "")
    (hget : s.configs.get? name = some config) (happ : config.AppliesTo model) :
    ∃ leader c, s.Leads model leader c := by
  cases hsel : s.selected? model with
  | some found => exact ⟨found.1, found.2, selected?_eq_some_iff.mp hsel⟩
  | none =>
    have hcond : (s.enabled && model != "") = true := by simp [henabled, hmodel]
    unfold selected? at hsel
    rw [if_pos hcond, List.find?_eq_none] at hsel
    have hno := hsel (name, config) (mem_candidates_iff.mpr ⟨hget, happ.1⟩)
    exact absurd happ.2 hno

/-- A leader under another name leads in the other snapshot too, unless the one name does. -/
theorem SameBut.leads (h : SameBut name s t) (hlead : s.Leads model other config)
    (hne : other ≠ name) (ht : ∀ c, ¬ t.Leads model name c) : t.Leads model other config := by
  have hlisted : t.configs.get? other = some config := by
    rw [h.others other hne]
    exact hlead.listed
  obtain ⟨leader, c, hleads⟩ :=
    exists_leads (h.enabled.trans hlead.enabled) hlead.named hlisted hlead.applies
  have hleader : leader ≠ name := by
    rintro rfl
    exact ht c hleads
  have hold : s.configs.get? leader = some c := by
    rw [← h.others leader hleader]
    exact hleads.listed
  by_cases heq : leader = other
  · subst heq
    cases hlisted.symm.trans hleads.listed
    exact hleads
  · -- Both snapshots have both configurations, and would try either before the other.
    have hfirst : TriedBefore (other, config) (leader, c) :=
      hlead.first leader c heq hold hleads.applies
    have hlast : TriedBefore (leader, c) (other, config) :=
      hleads.first other config (Ne.symm heq) hlisted hlead.applies
    exact absurd hlast hfirst.asymm

/-- A model that neither snapshot gives to the one name has the same configuration in both. -/
theorem SameBut.selected?_eq (h : SameBut name s t)
    (hs : ∀ c, s.selected? model ≠ some (name, c)) (ht : ∀ c, t.selected? model ≠ some (name, c)) :
    t.selected? model = s.selected? model := by
  have hs' : ∀ c, ¬ s.Leads model name c := fun c hc => hs c (selected?_eq_some_iff.mpr hc)
  have ht' : ∀ c, ¬ t.Leads model name c := fun c hc => ht c (selected?_eq_some_iff.mpr hc)
  apply Option.ext
  rintro ⟨leader, c⟩
  rw [selected?_eq_some_iff, selected?_eq_some_iff]
  constructor
  · intro hlead
    refine h.symm.leads hlead ?_ hs'
    rintro rfl
    exact ht' c hlead
  · intro hlead
    refine h.leads hlead ?_ ht'
    rintro rfl
    exact hs' c hlead

end Snapshot

/-- A model that is given to the configuration of an edit neither before nor after it is given to
the same configuration as before, if to any, and all its requests resolve as before. -/
theorem edit_keeps_resolution_of_others {basis : Basis} {s next : Snapshot} {edit : Edit}
    {name model : String} (h : edit.apply basis s = .ok next) (htarget : edit.target? = some name)
    (hbefore : ∀ config, s.selected? model ≠ some (name, config))
    (hafter : ∀ config, next.selected? model ≠ some (name, config)) :
    next.selected? model = s.selected? model ∧
      ∀ tokens, next.resolve? model tokens = s.resolve? model tokens := by
  have hsel := (Edit.sameBut_apply h htarget).selected?_eq hbefore hafter
  refine ⟨hsel, fun tokens => ?_⟩
  unfold Snapshot.resolve?
  rw [hsel]

/-- The disabled configuration of `tiedSnapshot` has the largest priority, and its copy here gets an
even larger one. -/
def disabledCopySnapshot : Snapshot :=
  tiedSnapshot.withConfig "c_copy" ⟨false, ⟨[.exact "m"]⟩, 10, []⟩

/-- The copy is as disabled as what it is a copy of, so the model stays where it was. -/
theorem copy_of_disabled_takes_no_model :
    (Edit.copyConfig "c").apply (.ofQuotaPerUnit 0) tiedSnapshot = .ok disabledCopySnapshot ∧
      (disabledCopySnapshot.selected? "m").isSome ∧
      disabledCopySnapshot.selected? "m" = tiedSnapshot.selected? "m" ∧
      ∀ tokens, disabledCopySnapshot.resolve? "m" tokens = tiedSnapshot.resolve? "m" tokens := by
  have hcopies : (Edit.copyConfig "c").apply (.ofQuotaPerUnit 0) tiedSnapshot =
      .ok disabledCopySnapshot := rfl
  have hnone : tiedSnapshot.configs.get? "c_copy" = none := rfl
  have hcopy : disabledCopySnapshot.configs.get? "c_copy" = some ⟨false, ⟨[.exact "m"]⟩, 10, []⟩ :=
    rfl
  have hbefore : ∀ config, tiedSnapshot.selected? "m" ≠ some ("c_copy", config) := by
    intro config hsel
    cases hnone.symm.trans (Snapshot.selected?_eq_some_iff.mp hsel).listed
  have hafter : ∀ config, disabledCopySnapshot.selected? "m" ≠ some ("c_copy", config) := by
    intro config hsel
    have hlead := Snapshot.selected?_eq_some_iff.mp hsel
    cases hcopy.symm.trans hlead.listed
    cases hlead.applies.1
  obtain ⟨hsel, hres⟩ := edit_keeps_resolution_of_others hcopies rfl hbefore hafter
  obtain ⟨leader, c, hlead⟩ : ∃ leader c, tiedSnapshot.Leads "m" leader c :=
    Snapshot.exists_leads rfl (by decide) (show tiedSnapshot.configs.get? "b" = some _ from rfl)
      ⟨rfl, by decide⟩
  refine ⟨hcopies, ?_, hsel, hres⟩
  rw [hsel, Snapshot.selected?_eq_some_iff.mpr hlead]
  rfl

end Tariff
