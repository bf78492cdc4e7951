import Tariff.Proofs.Locality

/-!
# Edits of different configurations commute

An edit of a configuration that is already there reads and writes nothing else. Two such edits of
different configurations can be made in either order.

* `ActsOn`: an action on snapshots that depends on the configuration of one name, and changes no
  other. `ActsOn.bind`, `ActsOn.atRule`: actions that read that configuration first.
* `Edit.actsOn`: the edits of a configuration that is already there.
* `ActsOn.failure?_eq`, `ActsOn.commute`: what follows for actions on two names.
* `edits_of_two_configs_commute`: the same of the edits.
-/

namespace Tariff

/-! ## Updates of tables -/

namespace Table

variable {α : Type} {a b : String}

/-- Gives a name a value, or takes it out. -/
def update (table : Table α) (name : String) : Option α → Table α
  | some value => table.insert name value
  | none => table.erase name

theorem get?_update (table : Table α) (name : String) (value : Option α) (other : String) :
    (table.update name value).get? other = if other = name then value else table.get? other := by
  cases value with
  | some value => exact table.get?_insert name value other
  | none => exact table.get?_erase name other

theorem update_comm (table : Table α) (hne : a ≠ b) (x y : Option α) :
    (table.update a x).update b y = (table.update b y).update a x := by
  refine ext_get? fun name => ?_
  simp only [get?_update]
  by_cases ha : name = a
  · have hb : name ≠ b := fun hb => hne (ha.symm.trans hb)
    rw [if_neg hb, if_pos ha, if_pos ha]
  · rw [if_neg ha, if_neg ha]

end Table

/-! ## Actions on one configuration -/

/-- Why a computation fails, if it does. -/
def failure? {ε α : Type} : Except ε α → Option ε
  | .error fault => some fault
  | .ok _ => none

theorem failure?_map {ε α β : Type} (f : α → β) (x : Except ε α) :
    failure? (x.map f) = failure? x := by
  cases x <;> rfl

/-- The snapshot with a configuration under a name, or with none. -/
def Snapshot.withEntry (s : Snapshot) (name : String) (config : Option TierConfig) : Snapshot :=
  { s with configs := s.configs.update name config }

/-- What an action does depends on the configuration of a name, and only that is changed. -/
def ActsOn (name : String) (act : Snapshot → Except EditError Snapshot) : Prop :=
  ∃ effect : Option TierConfig → Except EditError (Option TierConfig),
    ∀ s, act s = (effect (s.configs.get? name)).map (s.withEntry name)

/-- What looking a configuration up comes to. -/
def found (name : String) : Option TierConfig → Except EditError TierConfig
  | some config => .ok config
  | none => .error (.unknownConfig name)

theorem Snapshot.config_eq_found (s : Snapshot) (name : String) :
    s.config name = found name (s.configs.get? name) := by
  unfold Snapshot.config
  cases s.configs.get? name <;> rfl

/-- What looking a rule of a configuration up comes to: its place. -/
def foundRule (name rule : String) (config? : Option TierConfig) : Except EditError ℕ :=
  (found name config?).bind fun config =>
    (config.ruleIndex? rule).elim (.error (.unknownRule name rule)) .ok

theorem Snapshot.ruleIndex_eq_foundRule (s : Snapshot) (name rule : String) :
    s.ruleIndex name rule = foundRule name rule (s.configs.get? name) := by
  unfold Snapshot.ruleIndex foundRule
  rw [s.config_eq_found]
  cases found name (s.configs.get? name) with
  | error fault => rfl
  | ok config =>
    dsimp only [Except.bind]
    cases config.ruleIndex? rule <;> rfl

namespace ActsOn

variable {name : String}

theorem change (f : TierConfig → Except EditError TierConfig) :
    ActsOn name fun s => s.change name f := by
  refine ⟨fun config? => (found name config?).bind fun config => (f config).map some, fun s => ?_⟩
  dsimp only
  unfold Snapshot.change
  rw [s.config_eq_found]
  cases found name (s.configs.get? name) with
  | error fault => rfl
  | ok config =>
    show (f config).map (s.withConfig name) = ((f config).map some).map (s.withEntry name)
    cases f config <;> rfl

theorem removeConfig (name : String) : ActsOn name fun s => s.removeConfig name := by
  refine ⟨fun config? => (found name config?).map fun _ => none, fun s => ?_⟩
  dsimp only
  unfold Snapshot.removeConfig
  rw [s.config_eq_found]
  cases found name (s.configs.get? name) <;> rfl

/-- The configuration may be read before an action on it is chosen. -/
theorem bind {α : Type} {act : α → Snapshot → Except EditError Snapshot}
    (read : Option TierConfig → Except EditError α) (h : ∀ a, ActsOn name (act a)) :
    ActsOn name fun s => (read (s.configs.get? name)).bind fun a => act a s := by
  choose effect heffect using h
  refine ⟨fun config? => (read config?).bind fun a => effect a config?, fun s => ?_⟩
  dsimp only
  cases read (s.configs.get? name) with
  | error fault => rfl
  | ok a => exact heffect a s

/-- The place of a rule may be read before an action on it is chosen. -/
theorem atRule {act : ℕ → Snapshot → Except EditError Snapshot} (rule : String)
    (h : ∀ i, ActsOn name (act i)) :
    ActsOn name fun s => (s.ruleIndex name rule).bind fun i => act i s := by
  simp only [Snapshot.ruleIndex_eq_foundRule]
  exact bind (foundRule name rule) h

theorem putRule (index : Option ℕ) (draft : RuleDraft) (basis : Basis) :
    ActsOn name fun s => s.putRule name index draft basis :=
  bind (fun _ => draft.rule basis) fun _ => change _

end ActsOn

/-- Whether an edit makes a new configuration. -/
def Edit.makesNew : Edit → Bool
  | addConfig _ _ _ => true
  | copyConfig _ => true
  | _ => false

/-- An edit of a configuration that is already there acts on it alone. -/
theorem Edit.actsOn (basis : Basis) {edit : Edit} {name : String}
    (htarget : edit.target? = some name) (hold : edit.makesNew = false) :
    ActsOn name fun s => edit.apply basis s := by
  cases edit with
  | setEnabled enabled => cases htarget
  | addConfig new models rules => cases hold
  | copyConfig original => cases hold
  | removeConfig name =>
    cases htarget
    exact .removeConfig name
  | setConfigEnabled name enabled =>
    cases htarget
    exact .change _
  | setPriority name priority =>
    cases htarget
    exact .change _
  | setModels name models =>
    cases htarget
    exact .bind (fun _ => Snapshot.parseModels models) fun _ => .change _
  | putRule name index draft =>
    cases htarget
    exact .putRule index draft basis
  | replaceRule name rule draft =>
    cases htarget
    exact .atRule rule fun i => .putRule (some i) draft basis
  | removeRule name rule =>
    cases htarget
    exact .atRule rule fun _ => .change _
  | moveRule name rule direction =>
    cases htarget
    exact .atRule rule fun _ => .change _
  | resetRules name =>
    cases htarget
    exact .change _

/-! ## Two actions -/

namespace ActsOn

variable {a b : String} {act act' : Snapshot → Except EditError Snapshot} {s t t' : Snapshot}

/-- An action on another configuration does not decide whether and why an action fails. -/
theorem failure?_eq (h : ActsOn a act) (h' : ActsOn b act') (hne : a ≠ b)
    (hfirst : act' s = .ok t') : failure? (act t') = failure? (act s) := by
  obtain ⟨effect, heffect⟩ := h
  obtain ⟨effect', heffect'⟩ := h'
  rw [heffect'] at hfirst
  obtain ⟨config, -, rfl⟩ := map_eq_ok_iff.mp hfirst
  have hget : (s.withEntry b config).configs.get? a = s.configs.get? a := by
    unfold Snapshot.withEntry
    rw [Table.get?_update, if_neg hne]
  rw [heffect, heffect, failure?_map, failure?_map, hget]

/-- Where both actions succeed, so do both orders, with the same result. -/
theorem commute (h : ActsOn a act) (h' : ActsOn b act') (hne : a ≠ b) (hact : act s = .ok t)
    (hact' : act' s = .ok t') : ∃ both, act' t = .ok both ∧ act t' = .ok both := by
  obtain ⟨effect, heffect⟩ := h
  obtain ⟨effect', heffect'⟩ := h'
  rw [heffect] at hact
  rw [heffect'] at hact'
  obtain ⟨x, hx, rfl⟩ := map_eq_ok_iff.mp hact
  obtain ⟨y, hy, rfl⟩ := map_eq_ok_iff.mp hact'
  have hget : (s.withEntry a x).configs.get? b = s.configs.get? b := by
    unfold Snapshot.withEntry
    rw [Table.get?_update, if_neg hne.symm]
  have hget' : (s.withEntry b y).configs.get? a = s.configs.get? a := by
    unfold Snapshot.withEntry
    rw [Table.get?_update, if_neg hne]
  refine ⟨(s.withEntry a x).withEntry b y, ?_, ?_⟩
  · rw [heffect', hget, hy]
    rfl
  · rw [heffect, hget', hx]
    show Except.ok ((s.withEntry b y).withEntry a x) = _
    unfold Snapshot.withEntry
    rw [Table.update_comm _ hne.symm]

end ActsOn

/-- Of two edits of configurations that are already there, under different names and each with a
basis of its own, neither decides whether and why the other is refused. Where both succeed, either
order leads to the same snapshot. -/
theorem edits_of_two_configs_commute {basis basis' : Basis} {s : Snapshot} {edit edit' : Edit}
    {a b : String} (htarget : edit.target? = some a) (htarget' : edit'.target? = some b)
    (hne : a ≠ b) (hold : edit.makesNew = false) (hold' : edit'.makesNew = false) :
    (∀ t', edit'.apply basis' s = .ok t' →
      failure? (edit.apply basis t') = failure? (edit.apply basis s)) ∧
    (∀ t, edit.apply basis s = .ok t →
      failure? (edit'.apply basis' t) = failure? (edit'.apply basis' s)) ∧
    ∀ t t', edit.apply basis s = .ok t → edit'.apply basis' s = .ok t' →
      ∃ both, edit'.apply basis' t = .ok both ∧ edit.apply basis t' = .ok both := by
  have h := Edit.actsOn basis htarget hold
  have h' := Edit.actsOn basis' htarget' hold'
  exact ⟨fun t' hfirst => h.failure?_eq h' hne hfirst,
    fun t hfirst => h'.failure?_eq h hne.symm hfirst,
    fun t t' hact hact' => h.commute h' hne hact hact'⟩

/-- The edit that replaces the rule of `b` in `tiedSnapshot` by one in dollars. -/
def reprice : Edit :=
  .replaceRule "b" "all" ⟨" all ", ⟨⟨0, 50⟩, .unlimited⟩, .price 2.0 8.0 false⟩

/-- Taking `a` out and replacing the rule of `b` lead to one snapshot in either order. A rule that
`b` does not have is not found there, whether `a` is taken out before or not. -/
theorem removal_commutes_with_reprice :
    (∃ t t' both, (Edit.removeConfig "a").apply (.ofQuotaPerUnit 0) tiedSnapshot = .ok t ∧
      reprice.apply (.ofQuotaPerUnit 1) tiedSnapshot = .ok t' ∧
      reprice.apply (.ofQuotaPerUnit 1) t = .ok both ∧
      (Edit.removeConfig "a").apply (.ofQuotaPerUnit 0) t' = .ok both) ∧
    ∃ t, (Edit.removeConfig "a").apply (.ofQuotaPerUnit 0) tiedSnapshot = .ok t ∧
      failure? ((Edit.removeRule "b" "short").apply (.ofQuotaPerUnit 1) t) =
        some (.unknownRule "b" "short") := by
  constructor
  · obtain ⟨-, -, hcommute⟩ := @edits_of_two_configs_commute (.ofQuotaPerUnit 0)
      (.ofQuotaPerUnit 1) tiedSnapshot (.removeConfig "a") reprice "a" "b" rfl rfl (by decide)
      rfl rfl
    obtain ⟨both, hreprice, hremove⟩ := hcommute _ _ rfl rfl
    exact ⟨_, _, both, rfl, rfl, hreprice, hremove⟩
  · obtain ⟨-, hsame, -⟩ := @edits_of_two_configs_commute (.ofQuotaPerUnit 0)
      (.ofQuotaPerUnit 1) tiedSnapshot (.removeConfig "a") (.removeRule "b" "short") "a" "b" rfl
      rfl (by decide) rfl rfl
    exact ⟨_, rfl, hsame _ rfl⟩

end Tariff
