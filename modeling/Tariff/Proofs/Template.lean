import Tariff.Proofs.Put

/-!
# The template

Each request lies in the window of exactly one rule of the template. For such a list the order of
the rules does not matter: moving them changes no price, and every request has one.

* `Partitions`: exactly one rule of a list is for each request. `partitions_defaultRules`: of the
  template, since its windows begin behind each other's ends.
* `Partitions.firstAdmitting?_eq`: the same rules in any order price a request by the same one.
* `Snapshot.ChangesRules.resolve?_eq`: rules that price as before change nothing about a snapshot.
* `Snapshot.moveRules`: moves of rules of a configuration, one after another.
* `template_prices_alike_in_any_order`: what follows for a configuration with the template.
-/

namespace Tariff

/-! ## Lists that partition the requests -/

/-- Exactly one rule of the list is for each request. -/
def Partitions (rules : List Rule) : Prop :=
  ∀ tokens, rules.countP (·.admits tokens) = 1

namespace Partitions

variable {rules rules' : List Rule}

theorem perm (h : Partitions rules) (hperm : rules'.Perm rules) : Partitions rules' :=
  fun tokens => (hperm.countP_eq _).trans (h tokens)

/-- The rules for a request are one rule. -/
theorem exists_filter_eq (h : Partitions rules) (tokens : TokenCounts) :
    ∃ rule, rules.filter (·.admits tokens) = [rule] := by
  rw [← List.length_eq_one_iff, ← List.countP_eq_length_filter]
  exact h tokens

theorem exists_firstAdmitting?_eq (h : Partitions rules) (tokens : TokenCounts) :
    ∃ rule, firstAdmitting? rules tokens = some rule := by
  obtain ⟨rule, hrule⟩ := h.exists_filter_eq tokens
  refine ⟨rule, ?_⟩
  unfold firstAdmitting?
  rw [← List.head?_filter, hrule, List.head?_singleton]

/-- In any order, the same rule prices a request. -/
theorem firstAdmitting?_eq (h : Partitions rules) (hperm : rules'.Perm rules)
    (tokens : TokenCounts) : firstAdmitting? rules' tokens = firstAdmitting? rules tokens := by
  obtain ⟨rule, hrule⟩ := h.exists_filter_eq tokens
  have hfilter : rules'.filter (·.admits tokens) = [rule] :=
    List.perm_singleton.mp (hrule ▸ hperm.filter _)
  unfold firstAdmitting?
  rw [← List.head?_filter, ← List.head?_filter, hfilter, hrule]

end Partitions

/-! ## The windows of the template -/

namespace TokenRange

/-- A range that begins behind the end of another one admits what the other one does not, up to its
own end. -/
theorem admits_behind (last : UInt64) (hlast : last ≠ 0) (hnext : last + 1 ≠ 0)
    (max count : UInt64) :
    (⟨last + 1, max⟩ : TokenRange).admits count =
      (!(⟨0, last⟩ : TokenRange).admits count && (⟨0, max⟩ : TokenRange).admits count) := by
  have hbehind : decide (last + 1 ≤ count) = !decide (count ≤ last) := by
    have hlt := last.toNat_lt
    rw [ne_eq, ← UInt64.toNat_inj, UInt64.toNat_add] at hnext
    rw [← decide_not, decide_eq_decide, UInt64.le_iff_toNat_le, UInt64.le_iff_toNat_le,
      UInt64.toNat_add]
    simp only [UInt64.reduceToNat] at hnext ⊢
    omega
  unfold admits
  rw [beq_eq_false_iff_ne.mpr hlast, beq_eq_false_iff_ne.mpr hnext, hbehind]
  rfl

/-- A range with a larger end admits more. -/
theorem admits_mono {last max count : UInt64} (hlast : last ≠ 0) (hle : last ≤ max)
    (h : (⟨0, last⟩ : TokenRange).admits count = true) :
    (⟨0, max⟩ : TokenRange).admits count = true := by
  unfold admits at h ⊢
  rw [beq_eq_false_iff_ne.mpr hlast] at h
  have hcount : count ≤ last := of_decide_eq_true h
  rw [decide_eq_true (UInt64.le_trans hcount hle), Bool.or_true]
  rfl

end TokenRange

/-- The windows of the template meet without gaps: those of short inputs on the output side, and the
others on the input side. -/
theorem partitions_defaultRules : Partitions defaultRules := by
  rintro ⟨input, output⟩
  have hall (count : UInt64) : (⟨0, 0⟩ : TokenRange).admits count = true := by
    simp [TokenRange.admits]
  have hlong : (⟨201, 0⟩ : TokenRange).admits output = _ :=
    TokenRange.admits_behind 200 (by decide) (by decide) 0 output
  have hmedium : (⟨32001, 128000⟩ : TokenRange).admits input = _ :=
    TokenRange.admits_behind 32000 (by decide) (by decide) 128000 input
  have hlarge : (⟨128001, 0⟩ : TokenRange).admits input = _ :=
    TokenRange.admits_behind 128000 (by decide) (by decide) 0 input
  have hmono : (⟨0, 32000⟩ : TokenRange).admits input = true →
      (⟨0, 128000⟩ : TokenRange).admits input = true :=
    TokenRange.admits_mono (by decide) (by decide)
  simp only [defaultRules, List.countP_cons, List.countP_nil, Rule.admits, TokenBounds.admits,
    TokenRange.unlimited, hall, hlong, hmedium, hlarge, Bool.and_true]
  cases hshort : (⟨0, 32000⟩ : TokenRange).admits input with
  | true => cases (⟨0, 200⟩ : TokenRange).admits output <;> simp [hmono hshort]
  | false => cases (⟨0, 128000⟩ : TokenRange).admits input <;> simp

/-! ## Rules that price as before -/

namespace Snapshot

variable {s next : Snapshot} {model name leader rule : String} {config c : TierConfig}
  {rules : List Rule} {direction : Direction} {moves : List (String × Direction)}

namespace ChangesRules

theorem symm (h : s.ChangesRules next name config rules) :
    next.ChangesRules s name { config with rules := rules } config.rules :=
  ⟨h.after, h.before, h.others.symm⟩

/-- The configuration leads for the same models, whatever its rules are. -/
theorem leads_changed (h : s.ChangesRules next name config rules)
    (hlead : s.Leads model name config) : next.Leads model name { config with rules := rules } where
  enabled := h.others.enabled.trans hlead.enabled
  named := hlead.named
  listed := h.after
  applies := hlead.applies
  first other c hne hget := hlead.first other c hne (h.others.others other hne ▸ hget)

/-- So does every other one. -/
theorem leads_other (h : s.ChangesRules next name config rules) (hne : leader ≠ name)
    (hlead : s.Leads model leader c) : next.Leads model leader c where
  enabled := h.others.enabled.trans hlead.enabled
  named := hlead.named
  listed := (h.others.others leader hne).trans hlead.listed
  applies := hlead.applies
  first other r hother hget happlies := by
    by_cases hname : other = name
    · subst hname
      cases h.after.symm.trans hget
      exact hlead.first other config hother h.before happlies
    · exact hlead.first other r hother (h.others.others other hname ▸ hget) happlies

theorem exists_leads (h : s.ChangesRules next name config rules)
    (hlead : s.Leads model leader c) : ∃ c', next.Leads model leader c' ∧
      (c' = c ∨ c = config ∧ c' = { config with rules := rules }) := by
  by_cases hname : leader = name
  · subst hname
    cases h.before.symm.trans hlead.listed
    exact ⟨_, h.leads_changed hlead, .inr ⟨rfl, rfl⟩⟩
  · exact ⟨c, h.leads_other hname hlead, .inl rfl⟩

/-- Rules that price all requests as the former ones did change no resolution. -/
theorem resolve?_eq (h : s.ChangesRules next name config rules)
    (hrules : ∀ tokens, firstAdmitting? rules tokens = firstAdmitting? config.rules tokens)
    (model : String) (tokens : TokenCounts) :
    next.resolve? model tokens = s.resolve? model tokens := by
  unfold resolve?
  cases hsel : s.selected? model with
  | some found =>
    obtain ⟨c', hlead, hsame⟩ := h.exists_leads (selected?_eq_some_iff.mp hsel)
    rw [selected?_eq_some_iff.mpr hlead]
    obtain rfl | ⟨hc, rfl⟩ := hsame
    · rfl
    · simp only [Option.bind_some, hrules, hc]
  | none =>
    cases hnext : next.selected? model with
    | none => rfl
    | some found =>
      obtain ⟨c', hlead, -⟩ := h.symm.exists_leads (selected?_eq_some_iff.mp hnext)
      cases hsel.symm.trans (selected?_eq_some_iff.mpr hlead)

end ChangesRules

/-! ## Moves one after another -/

/-- Moves rules of a configuration one after another, up to the first move that is refused. -/
def moveRules (name : String) :
    Snapshot → List (String × Direction) → Except EditError Snapshot
  | s, [] => .ok s
  | s, (rule, direction) :: moves =>
    (s.moveRule name rule direction).bind fun next => next.moveRules name moves

/-- A move gives a configuration its rules in another order. -/
theorem changesRules_moveRule (hold : s.configs.get? name = some config)
    (h : s.moveRule name rule direction = .ok next) :
    ∃ rules, rules.Perm config.rules ∧ s.ChangesRules next name config rules := by
  obtain ⟨index, _, _, -, hget, ⟨⟩, rfl⟩ := ruleIndex_change_eq_ok h
  cases hold.symm.trans hget
  obtain ⟨rules, hperm, hmoved⟩ := config.perm_moveRule index direction
  rw [hmoved]
  exact ⟨rules, hperm, changesRules_withConfig hold rules⟩

/-- Moves among rules that partition the requests change no resolution. By induction on the moves:
each leaves the rules of the configuration a partition, in another order. -/
theorem resolve?_moveRules (hold : s.configs.get? name = some config)
    (hrules : Partitions config.rules) (h : s.moveRules name moves = .ok next) :
    ∀ model tokens, next.resolve? model tokens = s.resolve? model tokens := by
  induction moves generalizing s config with
  | nil =>
    cases h
    exact fun _ _ => rfl
  | cons move moves ih =>
    obtain ⟨moved, hmove, h⟩ := bind_eq_ok_iff.mp h
    obtain ⟨rules, hperm, hchanges⟩ := changesRules_moveRule hold hmove
    have hrest := ih hchanges.after (hrules.perm hperm) h
    have hfirst := hchanges.resolve?_eq (hrules.firstAdmitting?_eq hperm)
    exact fun model tokens => (hrest model tokens).trans (hfirst model tokens)

end Snapshot

/-- Of the rules of the template exactly one is for each request. So where a configuration has these
rules, in any order, moving them changes no resolution, and each request for a model that it is
selected for is priced by that one. -/
theorem template_prices_alike_in_any_order :
    (∀ tokens, defaultRules.countP (·.admits tokens) = 1) ∧
    ∀ (s : Snapshot) name config, s.configs.get? name = some config →
      config.rules.Perm defaultRules →
      (∀ moves next, s.moveRules name moves = .ok next →
        ∀ model tokens, next.resolve? model tokens = s.resolve? model tokens) ∧
      ∀ model, s.selected? model = some (name, config) →
        ∀ tokens, ∃ rule ∈ defaultRules, rule.admits tokens = true ∧
          s.resolve? model tokens = some ⟨name, rule.name, rule.pricing⟩ := by
  refine ⟨partitions_defaultRules, fun s name config hold hperm => ?_⟩
  have hrules : Partitions config.rules := partitions_defaultRules.perm hperm
  refine ⟨fun moves next => Snapshot.resolve?_moveRules hold hrules, fun model hsel tokens => ?_⟩
  obtain ⟨rule, hrule⟩ := hrules.exists_firstAdmitting?_eq tokens
  obtain ⟨index, hfirst⟩ := firstAdmitting?_eq_some_iff.mp hrule
  refine ⟨rule, hperm.mem_iff.mp (List.mem_of_getElem? hfirst.at_index),
    Rule.admits_iff.mpr hfirst.contains, ?_⟩
  unfold Snapshot.resolve?
  rw [hsel]
  simp only [Option.bind_some, hrule, Option.map_some]

/-- The only configuration is for one model. -/
def soleSnapshot (rules : List Rule) : Snapshot :=
  ⟨true, .single "gpt" ⟨true, ⟨[.exact "gpt-4o"]⟩, 1, rules⟩⟩

/-- The rule for the longest inputs is moved to the front, and once more where it stays. The longest
input of the rule for medium ones is still priced by that one, and the next count by the other. -/
theorem moved_template_prices_boundary_alike :
    ∃ moved : List Rule, moved.head? = defaultRules.getLast? ∧
      (soleSnapshot defaultRules).moveRules "gpt" (.replicate 4 ("T4_input_gt_128k", .up)) =
        .ok (soleSnapshot moved) ∧
      (∀ model tokens, (soleSnapshot moved).resolve? model tokens =
        (soleSnapshot defaultRules).resolve? model tokens) ∧
      (soleSnapshot moved).resolve? "gpt-4o" ⟨128000, 7⟩ =
        some ⟨"gpt", "T3_input_32k_to_128k", .ratio 0.6 1.0 none⟩ ∧
      (soleSnapshot moved).resolve? "gpt-4o" ⟨128001, 7⟩ =
        some ⟨"gpt", "T4_input_gt_128k", .ratio 1.2 1.0 none⟩ := by
  obtain ⟨-, htemplate⟩ := template_prices_alike_in_any_order
  obtain ⟨hmoves, hprices⟩ := htemplate (soleSnapshot defaultRules) "gpt" _ rfl (.refl _)
  have hmoved : (soleSnapshot defaultRules).moveRules "gpt"
      (.replicate 4 ("T4_input_gt_128k", .up)) =
        .ok (soleSnapshot (defaultRules.getLast (by decide) :: defaultRules.dropLast)) := rfl
  have hlead : (soleSnapshot defaultRules).Leads "gpt-4o" "gpt"
      ⟨true, ⟨[.exact "gpt-4o"]⟩, 1, defaultRules⟩ :=
    Snapshot.leads_single (by decide) ⟨rfl, by decide⟩
  have hsame := hmoves _ _ hmoved
  have hprice (rule : Rule) {tokens : TokenCounts}
      (honly : ∀ r ∈ defaultRules, r.admits tokens = true → r = rule) :
      (soleSnapshot defaultRules).resolve? "gpt-4o" tokens =
        some ⟨"gpt", rule.name, rule.pricing⟩ := by
    obtain ⟨r, hmem, hadmits, hres⟩ :=
      hprices "gpt-4o" (Snapshot.selected?_eq_some_iff.mpr hlead) tokens
    rw [hres, honly r hmem hadmits]
  refine ⟨_, rfl, hmoved, hsame, (hsame _ _).trans (hprice defaultRules[2] ?_),
    (hsame _ _).trans (hprice defaultRules[3] ?_)⟩
  · simp only [defaultRules, List.forall_mem_cons]
    exact ⟨nofun, nofun, fun _ => rfl, nofun, nofun⟩
  · simp only [defaultRules, List.forall_mem_cons]
    exact ⟨nofun, nofun, nofun, fun _ => rfl, nofun⟩

end Tariff
