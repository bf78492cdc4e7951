import Tariff.Proofs.Put
import Tariff.Proofs.Sound

/-!
# Rules that apply to no request

Bounds are inverted exactly if no request lies between them. Such bounds are refused when a rule is
entered, and are an issue of a rule that is there all the same.

* `TokenBounds.error?_isSome_iff`: bounds have a fault exactly if they admit no request.
* `Rule.IsIdle`: a rule prices no request, not even where it is the only one.
* `Snapshot.placedRules`: the rules of a snapshot in their places.
* `filterMap_boundsOf?_issues`: the issues about bounds are those of the idle rules, one by one.
* `bounds_are_refused_where_no_request_lies`: both readings of bounds agree.
-/

namespace Tariff

open Text

/-! ## Bounds and drafts -/

/-- Bounds have a fault exactly if they admit no request. -/
theorem TokenBounds.error?_isSome_iff {bounds : TokenBounds} :
    bounds.error?.isSome = true ↔ ∀ tokens, bounds.admits tokens = false := by
  have hadmits : (∃ tokens, bounds.admits tokens = true) ↔ bounds.error? = none :=
    @Rule.exists_admits_iff ⟨"", bounds, .ratio 0.0 0.0 none⟩
  rw [Option.isSome_iff_ne_none, ne_eq, ← hadmits, not_exists]
  simp only [Bool.not_eq_true]

/-- A fault of bounds is that one side is inverted. -/
theorem TokenBounds.exists_of_error? {bounds : TokenBounds} {error : EditError}
    (h : bounds.error? = some error) : ∃ side range, error = .invertedBounds side range := by
  unfold error? at h
  split at h
  · cases h
    exact ⟨_, _, rfl⟩
  · split at h
    · cases h
      exact ⟨_, _, rfl⟩
    · cases h

/-- A draft that has a name becomes a rule, unless its bounds have a fault. -/
theorem RuleDraft.rule_of_named {draft : RuleDraft} (hname : isBlankText draft.name = false)
    (basis : Basis) :
    draft.rule basis = draft.bounds.error?.elim (.ok (draft.kept basis)) .error := by
  unfold RuleDraft.rule
  rw [if_neg (Bool.eq_false_iff.mp hname)]
  cases draft.bounds.error? <;> rfl

/-- A draft that has a name is refused for its bounds exactly if they have a fault. -/
theorem RuleDraft.exists_invertedBounds_iff {draft : RuleDraft}
    (hname : isBlankText draft.name = false) (basis : Basis) :
    (∃ side range, draft.rule basis = .error (.invertedBounds side range)) ↔
      draft.bounds.error?.isSome = true := by
  rw [draft.rule_of_named hname basis]
  cases herror : draft.bounds.error? with
  | none => simp
  | some error =>
    obtain ⟨side, range, rfl⟩ := TokenBounds.exists_of_error? herror
    simp

/-! ## Rules in their places -/

/-- The rule prices no request, not even where it is the only one. -/
def Rule.IsIdle (rule : Rule) : Prop :=
  ∀ tokens, firstAdmitting? [rule] tokens ≠ some rule

theorem Rule.isIdle_iff {rule : Rule} : rule.IsIdle ↔ rule.bounds.error?.isSome = true := by
  unfold IsIdle
  rw [TokenBounds.error?_isSome_iff]
  refine forall_congr' fun tokens => ?_
  show ¬ List.find? _ [rule] = some rule ↔ rule.admits tokens = false
  cases hadmits : rule.admits tokens <;> simp [hadmits]

instance (rule : Rule) : Decidable rule.IsIdle := decidable_of_iff _ Rule.isIdle_iff.symm

/-- A rule in its place. -/
structure PlacedRule where
  /-- The name of its configuration. -/
  config : String
  /-- Its number there, counted from one. -/
  number : ℕ
  rule : Rule

/-- What the rule is called in issues, with the name of its configuration. -/
def PlacedRule.label (placed : PlacedRule) : String × String :=
  (placed.config, ruleLabel placed.number placed.rule)

/-- The rules of a configuration in their places, behind a count of others. -/
def placedRules (config : String) (earlier : ℕ) (rules : List Rule) : List PlacedRule :=
  (rules.zipIdx (earlier + 1)).map fun (rule, number) => ⟨config, number, rule⟩

/-- The rules of a snapshot in their places. -/
def Snapshot.placedRules (snapshot : Snapshot) : List PlacedRule :=
  snapshot.configs.entries.flatMap fun (name, config) => Tariff.placedRules name 0 config.rules

/-! ## Issues about bounds -/

/-- What an issue about bounds calls the rule, with the name of its configuration. -/
def Issue.boundsOf? : Issue → Option (String × String)
  | .bounds config rule _ => some (config, rule)
  | _ => none

/-- Of the issues of a rule one is about its bounds if it is idle, and else none. -/
theorem filterMap_boundsOf?_ruleIssues (config : String) (earlier : List Rule) (rule : Rule) :
    (ruleIssues config earlier rule).filterMap Issue.boundsOf? =
      if rule.IsIdle then [(config, ruleLabel (earlier.length + 1) rule)] else [] := by
  unfold ruleIssues
  simp only [List.filterMap_append, apply_ite (List.filterMap Issue.boundsOf?), List.filterMap_cons,
    List.filterMap_nil, Issue.boundsOf?, ite_self, List.nil_append, List.append_nil,
    Rule.isIdle_iff]
  cases rule.bounds.error? <;> rfl

/-- The issues about bounds of the rules of a configuration are those of the idle ones, in order. -/
theorem filterMap_boundsOf?_rulesIssues (config : String) (earlier rules : List Rule) :
    (rulesIssues config earlier rules).filterMap Issue.boundsOf? =
      ((placedRules config earlier.length rules).filter (·.rule.IsIdle)).map PlacedRule.label := by
  induction rules generalizing earlier with
  | nil => rfl
  | cons rule rest ih =>
    have hrest : placedRules config earlier.length (rule :: rest) =
        ⟨config, earlier.length + 1, rule⟩ ::
          placedRules config (earlier ++ [rule]).length rest := by
      simp [placedRules, List.zipIdx_cons]
    rw [rulesIssues, List.filterMap_append, filterMap_boundsOf?_ruleIssues, ih, hrest]
    by_cases hidle : rule.IsIdle
    · rw [if_pos hidle, List.filter_cons_of_pos (by simpa using hidle)]
      rfl
    · rw [if_neg hidle, List.filter_cons_of_neg (by simpa using hidle)]
      rfl

/-- The issues about bounds are those of the idle rules, one by one. -/
theorem filterMap_boundsOf?_issues (snapshot : Snapshot) :
    snapshot.issues.filterMap Issue.boundsOf? =
      (snapshot.placedRules.filter (·.rule.IsIdle)).map PlacedRule.label := by
  unfold Snapshot.issues Snapshot.placedRules
  rw [List.filterMap_flatMap, List.filter_flatMap, List.map_flatMap]
  congr 1
  funext ⟨name, config⟩
  dsimp only [configIssues]
  simp only [List.filterMap_append, apply_ite (List.filterMap Issue.boundsOf?), List.filterMap_cons,
    List.filterMap_nil, Issue.boundsOf?, ite_self, List.nil_append]
  exact filterMap_boundsOf?_rulesIssues name [] config.rules

/-- A draft that has a name is refused for its bounds exactly if they admit no request, and else it
becomes a rule for the requests that they admit. The issues about bounds in a snapshot are those of
the rules that are found for no request even in a list of their own, one by one in their order. -/
theorem bounds_are_refused_where_no_request_lies :
    (∀ (draft : RuleDraft) (basis : Basis), isBlankText draft.name = false →
      ((∃ side range, draft.rule basis = .error (.invertedBounds side range)) ↔
        ∀ tokens, draft.bounds.admits tokens = false) ∧
      ((∃ tokens, draft.bounds.admits tokens = true) →
        ∃ rule, draft.rule basis = .ok rule ∧
          ∀ tokens, rule.admits tokens = draft.bounds.admits tokens)) ∧
    ∀ snapshot : Snapshot, snapshot.issues.filterMap Issue.boundsOf? =
      (snapshot.placedRules.filter (·.rule.IsIdle)).map PlacedRule.label := by
  refine ⟨fun draft basis hname => ⟨?_, ?_⟩, filterMap_boundsOf?_issues⟩
  · rw [draft.exists_invertedBounds_iff hname basis, TokenBounds.error?_isSome_iff]
  · rintro ⟨tokens, hadmits⟩
    have hsound : draft.bounds.error? = none := by
      rw [← Option.not_isSome_iff_eq_none, TokenBounds.error?_isSome_iff, not_forall]
      exact ⟨tokens, by simp [hadmits]⟩
    refine ⟨draft.kept basis, ?_, fun _ => rfl⟩
    rw [draft.rule_of_named hname basis, hsound]
    rfl

/-- From five hundred to a hundred tokens on the input side. -/
def noInput : TokenBounds := ⟨⟨500, 100⟩, .unlimited⟩

/-- A draft for inputs from five hundred to a hundred tokens is refused, and one for outputs of
exactly 201 tokens is not. Of two rules of one name in a snapshot, the issue is that of the
first. -/
theorem window_from_500_to_100_is_refused :
    (∀ tokens, noInput.admits tokens = false) ∧
    (∃ rule, (⟨"x", ⟨.unlimited, ⟨201, 201⟩⟩, .price 1.0 2.0 true⟩ : RuleDraft).rule
        (.ofQuotaPerUnit 0) = .ok rule ∧ rule.admits ⟨0, 201⟩ = true) ∧
    (refundSnapshot [⟨"x", noInput, .ratio 1.0 1.0 none⟩,
        ⟨"x", .unlimited, .ratio 1.0 1.0 none⟩]).issues.filterMap Issue.boundsOf? =
      [("gpt", "x")] := by
  obtain ⟨hdrafts, hissues⟩ := bounds_are_refused_where_no_request_lies
  obtain ⟨hrefused, -⟩ :=
    hdrafts ⟨" x ", noInput, .price 1.0 2.0 true⟩ (.ofQuotaPerUnit 0) (by decide)
  obtain ⟨-, htaken⟩ :=
    hdrafts ⟨"x", ⟨.unlimited, ⟨201, 201⟩⟩, .price 1.0 2.0 true⟩ (.ofQuotaPerUnit 0) (by decide)
  obtain ⟨rule, hrule, hadmits⟩ := htaken ⟨⟨0, 201⟩, by decide⟩
  refine ⟨hrefused.mp ⟨.input, _, rfl⟩, ⟨rule, hrule, ?_⟩, ?_⟩
  · rw [hadmits]
    decide
  · rw [hissues]
    decide

end Tariff
