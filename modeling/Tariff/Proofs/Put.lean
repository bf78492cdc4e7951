import Tariff.Proofs.Locality
import Tariff.Proofs.Tidy

/-!
# Putting rules

A draft becomes a rule at the end of a list, or in the place of one that is there. Only a sound
draft under a name of its own is taken, and of several faults the first is reported.

* `Snapshot.ChangesRules`: two snapshots differ by the rules of one configuration, and by nothing
  else.
* `Finds`: a computation reports the first of some faults. `Finds.bind`: so does one after another.
* `RuleDraft.faults`, `TierConfig.putFaults`, `Snapshot.putFaults`: what can be wrong, in the order
  in which it is found.
* `Snapshot.putRule_eq_ok_iff`: what putting a rule comes to.
* `sound_drafts_are_put`: which drafts are taken, what becomes of them, and why others are refused.
-/

namespace Tariff

open Text

/-! ## Rules by name -/

/-- The rule at an index is the first of a list that has a name. -/
structure FirstNamed (rules : List Rule) (name : String) (index : ℕ) (rule : Rule) : Prop where
  at_index : rules[index]? = some rule
  named : rule.name = name
  none_before : ∀ i r, i < index → rules[i]? = some r → r.name ≠ name

theorem TierConfig.ruleIndex?_eq_some_iff {config : TierConfig} {name : String} {index : ℕ} :
    config.ruleIndex? name = some index ↔ ∃ rule, FirstNamed config.rules name index rule := by
  unfold ruleIndex?
  rw [findIdx?_eq_some_iff]
  refine exists_congr fun rule => ?_
  simp only [beq_iff_eq, beq_eq_false_iff_ne]
  exact ⟨fun ⟨hat, hnamed, hbefore⟩ => ⟨hat, hnamed, hbefore⟩,
    fun h => ⟨h.at_index, h.named, h.none_before⟩⟩

/-! ## Snapshots that differ by rules -/

/-- In the second snapshot a configuration has other rules; all else is as in the first. -/
structure Snapshot.ChangesRules (s next : Snapshot) (name : String) (config : TierConfig)
    (rules : List Rule) : Prop where
  before : s.configs.get? name = some config
  after : next.configs.get? name = some { config with rules := rules }
  others : SameBut name s next

theorem Snapshot.changesRules_withConfig {s : Snapshot} {name : String} {config : TierConfig}
    (h : s.configs.get? name = some config) (rules : List Rule) :
    s.ChangesRules (s.withConfig name { config with rules := rules }) name config rules :=
  ⟨h, by rw [get?_withConfig, if_pos rfl], s.sameBut_withConfig name _⟩

/-! ## The first fault -/

section Faults

variable {ε α β : Type} {faults more : List (Prop × ε)} {x : Except ε α}

/-- Of conditions with their errors, the error is that of the first condition that holds. -/
def FirstFault : List (Prop × ε) → ε → Prop
  | [], _ => False
  | (fault, error) :: later, found => fault ∧ found = error ∨ ¬ fault ∧ FirstFault later found

theorem firstFault_append {error : ε} :
    FirstFault (faults ++ more) error ↔
      FirstFault faults error ∨ (∀ fault ∈ faults, ¬ fault.1) ∧ FirstFault more error := by
  induction faults with
  | nil => simp [FirstFault]
  | cons fault faults ih =>
    rw [List.cons_append, FirstFault, FirstFault, ih, List.forall_mem_cons]
    tauto

theorem exists_firstFault_iff :
    (∃ error, FirstFault faults error) ↔ ∃ fault ∈ faults, fault.1 := by
  induction faults with
  | nil => simp [FirstFault]
  | cons fault faults ih =>
    simp only [FirstFault, List.exists_mem_cons_iff, ← ih]
    by_cases hfault : fault.1
    · simp [hfault]
    · simp [hfault]

/-- A computation fails with the first of some faults, and only so. -/
def Finds (x : Except ε α) (faults : List (Prop × ε)) : Prop :=
  ∀ error, x = .error error ↔ FirstFault faults error

namespace Finds

theorem exists_ok_iff (h : Finds x faults) :
    (∃ a, x = .ok a) ↔ ∀ fault ∈ faults, ¬ fault.1 := by
  have hnone : (∀ fault ∈ faults, ¬ fault.1) ↔ ∀ error, ¬ FirstFault faults error := by
    rw [← not_exists, exists_firstFault_iff]
    simp
  rw [hnone]
  constructor
  · rintro ⟨a, rfl⟩ error herror
    cases (h error).mpr herror
  · intro hno
    cases x with
    | ok a => exact ⟨a, rfl⟩
    | error error => exact absurd ((h error).mp rfl) (hno error)

/-- A computation that can come to one thing only comes to it where there is no fault. -/
theorem eq_ok_iff (h : Finds x faults) {a b : α} (hb : ∀ c, x = .ok c → c = b) :
    x = .ok a ↔ (∀ fault ∈ faults, ¬ fault.1) ∧ a = b := by
  rw [← h.exists_ok_iff]
  constructor
  · intro ha
    exact ⟨⟨a, ha⟩, hb a ha⟩
  · rintro ⟨⟨c, hc⟩, rfl⟩
    rw [← hb c hc]
    exact hc

theorem ok (a : α) : Finds (.ok a : Except ε α) [] :=
  fun _ => ⟨nofun, nofun⟩

/-- A check in front is the first that may fail. -/
theorem check {p : Prop} [Decidable p] {error : ε} (h : Finds x faults) :
    Finds (if p then .error error else x) ((p, error) :: faults) := by
  intro found
  rw [FirstFault, ← h found]
  by_cases hp : p
  · rw [if_pos hp]
    simp only [hp, true_and, not_true_eq_false, false_and, or_false, Except.error.injEq]
    exact eq_comm
  · rw [if_neg hp]
    simp only [hp, false_and, not_false_eq_true, true_and, false_or]

/-- Of two computations the second is reached only if the first finds nothing. -/
theorem bind {f : α → Except ε β} (h : Finds x faults)
    (hf : ∀ a, x = .ok a → Finds (f a) more) : Finds (x.bind f) (faults ++ more) := by
  intro error
  rw [firstFault_append, ← h error]
  cases x with
  | error cause =>
    have hfault : ¬ ∀ fault ∈ faults, ¬ fault.1 := by
      rw [← h.exists_ok_iff]
      rintro ⟨a, ⟨⟩⟩
    show Except.error cause = Except.error error ↔ _
    simp only [Except.error.injEq]
    exact ⟨.inl, fun hfound => hfound.resolve_right fun hmore => hfault hmore.1⟩
  | ok a =>
    have hnone : ∀ fault ∈ faults, ¬ fault.1 := h.exists_ok_iff.mp ⟨a, rfl⟩
    refine (hf a rfl error).trans ⟨fun hmore => .inr ⟨hnone, hmore⟩, ?_⟩
    rintro (⟨⟨⟩⟩ | ⟨-, hmore⟩)
    exact hmore

theorem map {f : α → β} (h : Finds x faults) : Finds (x.map f) faults :=
  fun error => map_eq_error_iff.trans (h error)

end Finds

end Faults

/-! ## Drafts -/

/-- What can be wrong with a draft. -/
def RuleDraft.faults (draft : RuleDraft) : List (Prop × EditError) :=
  [(isBlankText draft.name = true, .emptyRuleName),
    (draft.bounds.input.inverted = true, .invertedBounds .input draft.bounds.input),
    (draft.bounds.output.inverted = true, .invertedBounds .output draft.bounds.output)]

theorem RuleDraft.no_faults_iff {draft : RuleDraft} :
    (∀ fault ∈ draft.faults, ¬ fault.1) ↔ isBlankText draft.name = false ∧
      draft.bounds.input.inverted = false ∧ draft.bounds.output.inverted = false := by
  simp [faults]

/-- The rule that a draft is kept as. -/
def RuleDraft.kept (draft : RuleDraft) (basis : Basis) : Rule :=
  ⟨trimmed draft.name, draft.bounds, draft.pricing.pricing basis⟩

theorem RuleDraft.rule_eq (draft : RuleDraft) (basis : Basis) :
    draft.rule basis =
      if isBlankText draft.name = true then .error .emptyRuleName
      else if draft.bounds.input.inverted = true then
        .error (.invertedBounds .input draft.bounds.input)
      else if draft.bounds.output.inverted = true then
        .error (.invertedBounds .output draft.bounds.output)
      else .ok (draft.kept basis) := by
  unfold RuleDraft.rule TokenBounds.error?
  cases draft.bounds.input.inverted <;> cases draft.bounds.output.inverted <;> rfl

theorem RuleDraft.finds_rule (draft : RuleDraft) (basis : Basis) :
    Finds (draft.rule basis) draft.faults := by
  rw [draft.rule_eq basis]
  exact .check (.check (.check (.ok _)))

theorem RuleDraft.rule_eq_ok_iff {draft : RuleDraft} {basis : Basis} {rule : Rule} :
    draft.rule basis = .ok rule ↔
      (∀ fault ∈ draft.faults, ¬ fault.1) ∧ rule = draft.kept basis :=
  (draft.finds_rule basis).eq_ok_iff fun _ h => (RuleDraft.rule_eq_ok h).2.2

/-! ## Configurations -/

namespace TierConfig

variable {config : TierConfig} {name : String} {index : Option ℕ} {rule : Rule}

/-- No rule but the one at the index has the name. -/
def HasRoomFor (config : TierConfig) (index : Option ℕ) (rule : String) : Prop :=
  ∀ i r, config.rules[i]? = some r → r.name = rule → index = some i

theorem clashes_iff {rule : String} :
    config.clashes index rule = true ↔ ¬ config.HasRoomFor index rule := by
  rw [← Bool.not_eq_false, not_iff_not]
  refine ⟨fun h i r hr hname => eq_of_not_clashes h hr hname, fun h => ?_⟩
  unfold clashes
  rw [List.any_eq_false]
  rintro ⟨r, i⟩ hmem hclash
  rw [List.mem_zipIdx_iff_getElem?] at hmem
  rw [Bool.and_eq_true, beq_iff_eq, bne_iff_ne] at hclash
  exact hclash.2 (h i r hmem hclash.1).symm

/-- What can be wrong with putting a rule of a name into a configuration. -/
def putFaults (config : TierConfig) (name : String) (index : Option ℕ) (rule : String) :
    List (Prop × EditError) :=
  (¬ config.HasRoomFor index rule, .duplicateRule name rule) ::
    index.toList.map fun i =>
      (config.rules.length ≤ i, .unknownRule name ("#" ++ natText i))

/-- The rules with one more at the end, or with another one in the place at the index. -/
def placed (rules : List Rule) (index : Option ℕ) (rule : Rule) : List Rule :=
  index.elim (rules ++ [rule]) (rules.set · rule)

theorem no_putFaults_iff {i : ℕ} {rule : String} :
    (∀ fault ∈ config.putFaults name (some i) rule, ¬ fault.1) ↔
      config.HasRoomFor (some i) rule ∧ i < config.rules.length := by
  simp [putFaults]

theorem finds_putRule (config : TierConfig) (name : String) (index : Option ℕ) (rule : Rule) :
    Finds (config.putRule name index rule) (config.putFaults name index rule.name) := by
  unfold putRule putFaults
  rw [← propext clashes_iff]
  refine .check ?_
  cases index with
  | none => exact .ok _
  | some i =>
    show Finds (if i < config.rules.length then _ else _) _
    simp only [← Nat.not_le, ite_not]
    exact .check (.ok _)

theorem putRule_eq_ok_iff {next : TierConfig} :
    config.putRule name index rule = .ok next ↔
      (∀ fault ∈ config.putFaults name index rule.name, ¬ fault.1) ∧
        next = { config with rules := placed config.rules index rule } := by
  refine (config.finds_putRule name index rule).eq_ok_iff fun next h => ?_
  obtain ⟨-, ⟨rfl, rfl⟩ | ⟨i, rfl, -, rfl⟩⟩ := putRule_cases h
  · rfl
  · rfl

end TierConfig

/-! ## Snapshots -/

namespace Snapshot

variable {s next : Snapshot} {name : String} {index : Option ℕ} {draft : RuleDraft} {basis : Basis}

/-- What can be wrong with putting a draft into a configuration, in the order in which it is
found. -/
def putFaults (s : Snapshot) (name : String) (index : Option ℕ) (draft : RuleDraft) :
    List (Prop × EditError) :=
  [(isBlankText draft.name = true, .emptyRuleName),
    (draft.bounds.input.inverted = true, .invertedBounds .input draft.bounds.input),
    (draft.bounds.output.inverted = true, .invertedBounds .output draft.bounds.output),
    (s.configs.get? name = none, .unknownConfig name),
    (∃ config, s.configs.get? name = some config ∧ ¬ config.HasRoomFor index (trimmed draft.name),
      .duplicateRule name (trimmed draft.name))] ++
  index.toList.map fun i =>
    (∃ config, s.configs.get? name = some config ∧ config.rules.length ≤ i,
      .unknownRule name ("#" ++ natText i))

theorem finds_config (s : Snapshot) (name : String) :
    Finds (s.config name) [(s.configs.get? name = none, .unknownConfig name)] := by
  intro error
  unfold Snapshot.config
  cases s.configs.get? name with
  | none => simp [FirstFault, eq_comm]
  | some config => simp [FirstFault]

theorem finds_putRule (s : Snapshot) (name : String) (index : Option ℕ) (draft : RuleDraft)
    (basis : Basis) : Finds (s.putRule name index draft basis) (s.putFaults name index draft) := by
  refine (draft.finds_rule basis).bind fun rule hrule => ?_
  refine (s.finds_config name).bind fun config hconfig => .map ?_
  obtain ⟨-, rfl⟩ := RuleDraft.rule_eq_ok_iff.mp hrule
  simp only [config_eq_ok_iff.mp hconfig, Option.some.injEq, exists_eq_left']
  exact config.finds_putRule name index (draft.kept basis)

/-- What putting a draft comes to. -/
theorem putRule_eq_ok_iff :
    s.putRule name index draft basis = .ok next ↔
      ∃ config, s.configs.get? name = some config ∧
        (∀ fault ∈ draft.faults, ¬ fault.1) ∧
        (∀ fault ∈ config.putFaults name index (trimmed draft.name), ¬ fault.1) ∧
        next = s.withConfig name
          { config with rules := TierConfig.placed config.rules index (draft.kept basis) } := by
  constructor
  · intro h
    obtain ⟨rule, hrule, h⟩ := bind_eq_ok_iff.mp h
    obtain ⟨hdraft, rfl⟩ := RuleDraft.rule_eq_ok_iff.mp hrule
    obtain ⟨config, config', hold, hput, rfl⟩ := change_eq_ok h
    obtain ⟨hfree, rfl⟩ := TierConfig.putRule_eq_ok_iff.mp hput
    exact ⟨config, hold, hdraft, hfree, rfl⟩
  · rintro ⟨config, hold, hdraft, hfree, rfl⟩
    refine bind_eq_ok_iff.mpr ⟨_, RuleDraft.rule_eq_ok_iff.mpr ⟨hdraft, rfl⟩, ?_⟩
    refine bind_eq_ok_iff.mpr ⟨config, config_eq_ok_iff.mpr hold, ?_⟩
    exact map_eq_ok_iff.mpr ⟨_, TierConfig.putRule_eq_ok_iff.mpr ⟨hfree, rfl⟩, rfl⟩

/-- The draft has a name and bounds that are not inverted, the configuration is there, and so is the
rule at the index, if there is to be one; the name is that of no other rule. -/
structure Takes (s : Snapshot) (name : String) (index : Option ℕ) (draft : RuleDraft) : Prop where
  named : isBlankText draft.name = false
  input : draft.bounds.input.inverted = false
  output : draft.bounds.output.inverted = false
  fits : ∃ config, s.configs.get? name = some config ∧
    config.HasRoomFor index (trimmed draft.name) ∧ ∀ i, index = some i → i < config.rules.length

theorem takes_iff :
    s.Takes name index draft ↔ ∀ fault ∈ s.putFaults name index draft, ¬ fault.1 := by
  constructor
  · rintro ⟨hnamed, hinput, houtput, config, hold, hroom, hplace⟩
    simp only [putFaults, List.forall_mem_append, List.forall_mem_cons, hnamed, hinput, houtput,
      hold, Option.some.injEq, exists_eq_left', List.forall_mem_map, Option.mem_toList]
    simpa [hroom] using hplace
  · intro h
    simp only [putFaults, List.forall_mem_append, List.forall_mem_cons, List.forall_mem_map,
      Option.mem_toList, Bool.not_eq_true] at h
    obtain ⟨⟨hnamed, hinput, houtput, hknown, hroom, -⟩, hplace⟩ := h
    obtain ⟨config, hold⟩ := Option.ne_none_iff_exists'.mp hknown
    refine ⟨hnamed, hinput, houtput, config, hold, ?_, fun i hi => ?_⟩
    · exact of_not_not fun hclash => hroom ⟨config, hold, hclash⟩
    · exact Nat.lt_of_not_le fun hle => hplace i hi ⟨config, hold, hle⟩

end Snapshot

/-- A draft is put into a configuration exactly if it is sound, the configuration is there with a
rule at the index, if there is one, and no other rule has the name. Then its rule stands at the end,
or in the place at the index, and all else is as before. Else the first fault is reported. -/
theorem sound_drafts_are_put (s : Snapshot) (name : String) (index : Option ℕ) (draft : RuleDraft)
    (basis : Basis) :
    ((∃ next, s.putRule name index draft basis = .ok next) ↔ s.Takes name index draft) ∧
    (∀ next, s.putRule name index draft basis = .ok next →
      ∃ config rule, draft.rule basis = .ok rule ∧
        s.ChangesRules next name config
          (index.elim (config.rules ++ [rule]) (config.rules.set · rule))) ∧
    ∀ error, s.putRule name index draft basis = .error error ↔
      FirstFault (s.putFaults name index draft) error := by
  have hfinds := s.finds_putRule name index draft basis
  refine ⟨hfinds.exists_ok_iff.trans Snapshot.takes_iff.symm, fun next h => ?_, hfinds⟩
  obtain ⟨config, hold, hdraft, -, rfl⟩ := Snapshot.putRule_eq_ok_iff.mp h
  exact ⟨config, _, RuleDraft.rule_eq_ok_iff.mpr ⟨hdraft, rfl⟩,
    Snapshot.changesRules_withConfig hold _⟩

/-- The rule of `b` in `tiedSnapshot`, entered with blanks around its name and with prices of
zero. -/
def draftOfAll : RuleDraft := ⟨" all ", ⟨⟨0, 50⟩, .unlimited⟩, .price 0.0 0.0 false⟩

/-- A rule for longer requests, entered with prices that are to be kept as ratios. -/
def draftOfLong : RuleDraft := ⟨"long", ⟨⟨51, 0⟩, .unlimited⟩, .price 3.0 12.0 true⟩

/-- `tiedSnapshot` with other rules of the configuration `b`. -/
def tiedWithRules (rules : List Rule) : Snapshot :=
  tiedSnapshot.withConfig "b" ⟨true, ⟨[.exact "m"]⟩, -3, rules⟩

/-- The draft may have its name in its own place, and is kept at a ratio of zero. At a place that is
not there the name is taken, and that is found first. A draft with a new name and with prices is
appended, and kept at the ratios that the prices come to. -/
theorem draft_of_all_stays_in_its_place :
    (tiedSnapshot.putRule "b" (some 0) draftOfAll (.ofQuotaPerUnit 0) =
        .ok (tiedWithRules [⟨"all", ⟨⟨0, 50⟩, .unlimited⟩, .ratio 0.0 1.0 none⟩]) ∧
      ∃ config rule, draftOfAll.rule (.ofQuotaPerUnit 0) = .ok rule ∧
        tiedSnapshot.ChangesRules
          (tiedWithRules [⟨"all", ⟨⟨0, 50⟩, .unlimited⟩, .ratio 0.0 1.0 none⟩]) "b" config
          (config.rules.set 0 rule)) ∧
    tiedSnapshot.Takes "b" (some 0) draftOfAll ∧
    ¬ tiedSnapshot.Takes "b" (some 5) draftOfAll ∧
    FirstFault (tiedSnapshot.putFaults "b" (some 5) draftOfAll) (.duplicateRule "b" "all") ∧
    tiedSnapshot.Takes "b" none draftOfLong ∧
    tiedSnapshot.putRule "b" none draftOfLong (.ofQuotaPerUnit 0) =
        .ok (tiedWithRules [⟨"all", .unlimited, .ratio 2.0 1.0 none⟩,
          ⟨"long", ⟨⟨51, 0⟩, .unlimited⟩, .ratio 1.5 4.0 none⟩]) ∧
      ∃ config rule, draftOfLong.rule (.ofQuotaPerUnit 0) = .ok rule ∧
        tiedSnapshot.ChangesRules
          (tiedWithRules [⟨"all", .unlimited, .ratio 2.0 1.0 none⟩,
            ⟨"long", ⟨⟨51, 0⟩, .unlimited⟩, .ratio 1.5 4.0 none⟩]) "b" config
          (config.rules ++ [rule]) := by
  have hput : tiedSnapshot.putRule "b" (some 0) draftOfAll (.ofQuotaPerUnit 0) =
      .ok (tiedWithRules [⟨"all", ⟨⟨0, 50⟩, .unlimited⟩, .ratio 0.0 1.0 none⟩]) := rfl
  have hrefused : tiedSnapshot.putRule "b" (some 5) draftOfAll (.ofQuotaPerUnit 0) =
      .error (.duplicateRule "b" "all") := rfl
  have happended : tiedSnapshot.putRule "b" none draftOfLong (.ofQuotaPerUnit 0) =
      .ok (tiedWithRules [⟨"all", .unlimited, .ratio 2.0 1.0 none⟩,
        ⟨"long", ⟨⟨51, 0⟩, .unlimited⟩, .ratio 1.5 4.0 none⟩]) := by decide +kernel
  obtain ⟨htakes, hchanges, -⟩ :=
    sound_drafts_are_put tiedSnapshot "b" (some 0) draftOfAll (.ofQuotaPerUnit 0)
  obtain ⟨hnever, -, hfirst⟩ :=
    sound_drafts_are_put tiedSnapshot "b" (some 5) draftOfAll (.ofQuotaPerUnit 0)
  obtain ⟨htakes', hchanges', -⟩ :=
    sound_drafts_are_put tiedSnapshot "b" none draftOfLong (.ofQuotaPerUnit 0)
  refine ⟨⟨hput, hchanges _ hput⟩, htakes.mp ⟨_, hput⟩, fun h => ?_, (hfirst _).mp hrefused,
    htakes'.mp ⟨_, happended⟩, happended, hchanges' _ happended⟩
  obtain ⟨next, hnext⟩ := hnever.mpr h
  cases hrefused.symm.trans hnext

end Tariff
