import Tariff.Proofs.Search
import Tariff.Proofs.Table
import Tariff.Tier.Snapshot

/-!
# Which rule prices a request

* `TriedBefore`: the order in which configurations are tried. `byPriority_pairwise`: sorting by
  priority alone puts them in this order, since the sort is stable and names ascend before it.
* `Snapshot.Leads`: a configuration applies to a model, and is tried before every other that does.
  `selected?_eq_some_iff`: it is the one selected.
* `FirstFor`: a rule is the first of a list whose window holds a request.
* `resolution_is_first_rule_of_leader`: a request resolves to the first rule of the leader, and to
  nothing where the leader has no such rule.
-/

namespace Tariff

/-! ## The order in which configurations are tried -/

/-- Configuration `a` is tried before `b`. -/
def TriedBefore (a b : NamedConfig) : Prop :=
  b.2.priority < a.2.priority ∨ b.2.priority = a.2.priority ∧ a.1 < b.1

theorem TriedBefore.asymm {a b : NamedConfig} (h : TriedBefore a b) : ¬ TriedBefore b a := by
  rintro (hlt | ⟨heq, hname⟩) <;> rcases h with h | ⟨he, hn⟩
  · exact Int64.lt_irrefl (Int64.lt_trans h hlt)
  · exact Int64.lt_irrefl (he ▸ hlt)
  · exact Int64.lt_irrefl (heq ▸ h)
  · exact String.lt_irrefl _ (String.lt_trans hn hname)

theorem byPriority_pairwise {configs : List NamedConfig}
    (h : configs.Pairwise fun a b => a.1 < b.1) :
    (Snapshot.byPriority configs).Pairwise TriedBefore := by
  have htrans : ∀ a b c : NamedConfig, decide (b.2.priority ≤ a.2.priority) = true →
      decide (c.2.priority ≤ b.2.priority) = true → decide (c.2.priority ≤ a.2.priority) = true := by
    grind
  have htotal : ∀ a b : NamedConfig, (decide (b.2.priority ≤ a.2.priority) ||
      decide (a.2.priority ≤ b.2.priority)) = true := by
    grind
  unfold Snapshot.byPriority
  induction configs with
  | nil => simp
  | cons a rest ih =>
    -- `a` goes behind the configurations of larger priority and in front of all others.
    obtain ⟨larger, others, hsort, hrest, hlarger⟩ := List.mergeSort_cons htrans htotal a rest
    have hsorted := List.pairwise_mergeSort htrans htotal (a :: rest)
    have ih := ih h.of_cons
    rw [hsort] at hsorted ⊢
    rw [hrest] at ih
    obtain ⟨hl, ho, hlo⟩ := List.pairwise_append.mp ih
    refine List.pairwise_append.mpr ⟨hl, List.pairwise_cons.mpr ⟨fun b hb => ?_, ho⟩, ?_⟩
    · have hle := (List.pairwise_cons.mp (List.pairwise_append.mp hsorted).2.1).1 b hb
      have hmem : b ∈ rest := by
        rw [← List.mem_mergeSort, hrest]
        exact List.mem_append_right _ hb
      have hname := (List.pairwise_cons.mp h).1 b hmem
      unfold TriedBefore
      grind
    · intro b hb c hc
      rcases List.mem_cons.mp hc with rfl | hc
      · have := hlarger b hb
        left
        grind
      · exact hlo b hb c hc

/-! ## The configuration that is selected -/

/-- A configuration is enabled and for a model. -/
def TierConfig.AppliesTo (config : TierConfig) (model : String) : Prop :=
  config.enabled = true ∧ config.models.admits model = true

/-- Tiered pricing is on, and of all configurations that apply to a model this one is tried
first. -/
structure Snapshot.Leads (snapshot : Snapshot) (model name : String) (config : TierConfig) :
    Prop where
  enabled : snapshot.enabled = true
  named : model ≠ ""
  listed : snapshot.configs.get? name = some config
  applies : config.AppliesTo model
  first : ∀ other c, other ≠ name → snapshot.configs.get? other = some c → c.AppliesTo model →
    c.priority < config.priority ∨ c.priority = config.priority ∧ name < other

namespace Snapshot

variable {snapshot : Snapshot} {model name : String} {config : TierConfig}

/-- The only configuration leads for the models that it applies to. -/
theorem leads_single (hmodel : model ≠ "") (happlies : config.AppliesTo model) :
    (⟨true, .single name config⟩ : Snapshot).Leads model name config := by
  have hlisted : (Table.single name config).get? name = some config :=
    Table.mem_entries_iff.mp (List.mem_singleton.mpr rfl)
  refine ⟨rfl, hmodel, hlisted, happlies, fun other c hne hget _ => ?_⟩
  have hmem := List.mem_singleton.mp (Table.mem_entries_iff.mpr hget)
  exact absurd (congrArg Prod.fst hmem) hne

theorem mem_candidates_iff :
    (name, config) ∈ snapshot.candidates ↔
      snapshot.configs.get? name = some config ∧ config.enabled = true := by
  unfold candidates byPriority
  rw [List.mem_mergeSort, List.mem_filter, Table.mem_entries_iff]

theorem candidates_pairwise (snapshot : Snapshot) : snapshot.candidates.Pairwise TriedBefore :=
  byPriority_pairwise (snapshot.configs.ascending.filter _)

/-- The selected configuration is the leader. -/
theorem selected?_eq_some_iff :
    snapshot.selected? model = some (name, config) ↔ snapshot.Leads model name config := by
  unfold selected?
  by_cases hon : snapshot.enabled = true ∧ model ≠ ""
  · have hcond : (snapshot.enabled && model != "") = true := by simpa using hon
    rw [if_pos hcond,
      find?_eq_some_iff_of_pairwise TriedBefore.asymm snapshot.candidates_pairwise,
      mem_candidates_iff]
    constructor
    · rintro ⟨⟨hget, hen⟩, had, hfirst⟩
      refine ⟨hon.1, hon.2, hget, ⟨hen, had⟩, fun other c hne hc happ => ?_⟩
      refine (hfirst (other, c) (mem_candidates_iff.mpr ⟨hc, happ.1⟩) happ.2).resolve_left ?_
      exact fun heq => hne (congrArg Prod.fst heq)
    · intro hlead
      refine ⟨⟨hlead.listed, hlead.applies.1⟩, hlead.applies.2, ?_⟩
      rintro ⟨other, c⟩ hmem had
      obtain ⟨hget, hen⟩ := mem_candidates_iff.mp hmem
      by_cases hne : other = name
      · subst hne
        rw [hlead.listed, Option.some.injEq] at hget
        exact .inl (congrArg _ hget.symm)
      · exact .inr (hlead.first other c hne hget ⟨hen, had⟩)
  · have hcond : ¬ (snapshot.enabled && model != "") = true := by simpa using hon
    rw [if_neg hcond]
    refine ⟨fun h => by simp at h, fun hlead => absurd ⟨hlead.enabled, hlead.named⟩ hon⟩

end Snapshot

/-! ## The rule that prices a request -/

/-- A count is no smaller than the smallest and no larger than the largest, where they are
bounds. -/
def TokenRange.Contains (range : TokenRange) (count : UInt64) : Prop :=
  (range.min = 0 ∨ range.min ≤ count) ∧ (range.max = 0 ∨ count ≤ range.max)

/-- A request lies in a window on both sides. -/
def TokenBounds.Contains (bounds : TokenBounds) (tokens : TokenCounts) : Prop :=
  bounds.input.Contains tokens.input ∧ bounds.output.Contains tokens.output

theorem Rule.admits_iff {rule : Rule} {tokens : TokenCounts} :
    rule.admits tokens = true ↔ rule.bounds.Contains tokens := by
  simp [admits, TokenBounds.admits, TokenRange.admits, TokenBounds.Contains, TokenRange.Contains]

/-- The rule at an index is the first of a list whose window holds a request. -/
structure FirstFor (rules : List Rule) (tokens : TokenCounts) (index : Nat) (rule : Rule) :
    Prop where
  at_index : rules[index]? = some rule
  contains : rule.bounds.Contains tokens
  none_before : ∀ i r, i < index → rules[i]? = some r → ¬ r.bounds.Contains tokens

theorem firstAdmitting?_eq_some_iff {rules : List Rule} {tokens : TokenCounts} {rule : Rule} :
    firstAdmitting? rules tokens = some rule ↔ ∃ index, FirstFor rules tokens index rule := by
  unfold firstAdmitting?
  rw [List.find?_eq_some_iff_getElem, Rule.admits_iff]
  constructor
  · rintro ⟨hin, index, hlt, hat, hbefore⟩
    refine ⟨index, List.getElem?_eq_some_iff.mpr ⟨hlt, hat⟩, hin, fun i r hi hr hc => ?_⟩
    obtain ⟨hi', rfl⟩ := List.getElem?_eq_some_iff.mp hr
    have hno := hbefore i hi
    rw [Rule.admits_iff.mpr hc] at hno
    simp at hno
  · rintro ⟨index, hat, hin, hbefore⟩
    obtain ⟨hlt, hat⟩ := List.getElem?_eq_some_iff.mp hat
    refine ⟨hin, index, hlt, hat, fun i hi => ?_⟩
    rw [Bool.not_eq_true', Bool.eq_false_iff]
    exact fun hadm => hbefore i _ hi (List.getElem?_eq_getElem (by omega)) (Rule.admits_iff.mp hadm)

theorem firstAdmitting?_eq_none_iff {rules : List Rule} {tokens : TokenCounts} :
    firstAdmitting? rules tokens = none ↔ ∀ rule ∈ rules, ¬ rule.bounds.Contains tokens := by
  simp [firstAdmitting?, ← Rule.admits_iff]

/-- A request resolves to the first rule of the leader whose window holds it. Where no rule of the
leader does, it resolves to nothing, whatever other configurations there are. -/
theorem resolution_is_first_rule_of_leader (snapshot : Snapshot) (model : String)
    (tokens : TokenCounts) :
    (∀ found, snapshot.resolve? model tokens = some found ↔
      ∃ config index rule, snapshot.Leads model found.config config ∧
        FirstFor config.rules tokens index rule ∧
        found.rule = rule.name ∧ found.pricing = rule.pricing) ∧
    (∀ name config, snapshot.Leads model name config →
      (∀ rule ∈ config.rules, ¬ rule.bounds.Contains tokens) →
      snapshot.resolve? model tokens = none) := by
  constructor
  · rintro ⟨name, rule, pricing⟩
    unfold Snapshot.resolve?
    rw [Option.bind_eq_some_iff]
    constructor
    · rintro ⟨⟨n, config⟩, hsel, hrule⟩
      obtain ⟨r, hr, heq⟩ := Option.map_eq_some_iff.mp hrule
      cases heq
      obtain ⟨index, hfirst⟩ := firstAdmitting?_eq_some_iff.mp hr
      exact ⟨config, index, r, Snapshot.selected?_eq_some_iff.mp hsel, hfirst, rfl, rfl⟩
    · rintro ⟨config, index, r, hlead, hfirst, rfl, rfl⟩
      refine ⟨(name, config), Snapshot.selected?_eq_some_iff.mpr hlead, ?_⟩
      simp only [firstAdmitting?_eq_some_iff.mpr ⟨index, hfirst⟩, Option.map_some]
  · intro name config hlead hno
    unfold Snapshot.resolve?
    rw [Snapshot.selected?_eq_some_iff.mpr hlead, Option.bind_some]
    simp only [firstAdmitting?_eq_none_iff.mpr hno, Option.map_none]

/-- Two configurations of equal priority apply to the model `m`, and the one that leads by its name
has no rule for the request. The disabled one of larger priority plays no part. -/
def tiedSnapshot : Snapshot where
  enabled := true
  configs :=
    ⟨[("a", ⟨true, ⟨[.startingWith "m"]⟩, -3, [⟨"short", ⟨⟨0, 10⟩, ⟨0, 0⟩⟩, .ratio 1.0 1.0 none⟩]⟩),
      ("b", ⟨true, ⟨[.exact "m"]⟩, -3, [⟨"all", .unlimited, .ratio 2.0 1.0 none⟩]⟩),
      ("c", ⟨false, ⟨[.exact "m"]⟩, 9, []⟩)], by decide⟩

theorem tied_request_resolves_to_nothing :
    ∃ config, tiedSnapshot.Leads "m" "a" config ∧
      (∀ rule ∈ config.rules, ¬ rule.bounds.Contains ⟨20, 0⟩) ∧
      tiedSnapshot.resolve? "m" ⟨20, 0⟩ = none := by
  have hlead : tiedSnapshot.Leads "m" "a"
      ⟨true, ⟨[.startingWith "m"]⟩, -3, [⟨"short", ⟨⟨0, 10⟩, ⟨0, 0⟩⟩, .ratio 1.0 1.0 none⟩]⟩ := by
    refine ⟨rfl, by decide, rfl, ⟨rfl, by decide⟩, fun other c hne hget happ => ?_⟩
    have hmem := Table.mem_entries_iff.mpr hget
    simp only [tiedSnapshot, List.mem_cons, Prod.mk.injEq, List.not_mem_nil, or_false] at hmem
    rcases hmem with ⟨rfl, -⟩ | ⟨rfl, rfl⟩ | ⟨rfl, rfl⟩
    · exact absurd rfl hne
    · exact .inr ⟨rfl, by decide⟩
    · exact absurd happ.1 (by decide)
  have hno : ∀ rule ∈ [(⟨"short", ⟨⟨0, 10⟩, ⟨0, 0⟩⟩, .ratio 1.0 1.0 none⟩ : Rule)],
      ¬ rule.bounds.Contains ⟨20, 0⟩ := by
    intro rule hrule
    rw [List.mem_singleton.mp hrule, ← Rule.admits_iff]
    decide
  exact ⟨_, hlead, hno,
    (resolution_is_first_rule_of_leader tiedSnapshot "m" ⟨20, 0⟩).2 "a" _ hlead hno⟩

end Tariff
