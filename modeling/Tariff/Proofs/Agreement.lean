import Tariff.Proofs.Quote
import Tariff.Proofs.Results

/-!
# Whether the price and the cost of a request name one tier

A price looks at how a model is billed before it looks at tiers, and a cost looks at tiers alone.

* `Query.PricedUnder`, `Query.CostedUnder`: the price, or the cost, is found under a rule of a
  configuration. A cost is so even where the charge overflows.
* `pricedUnder_iff`, `costedUnder_iff`: when it is.
* `price_and_cost_agree_iff`: the two name one tier, unless a tier applies to a model with a record
  that is charged by call.
* `per_call_model_is_costed_under_tier`: there they do not.
-/

namespace Tariff

namespace Query

variable {query : Query} {setup : Setup} {setupFile : String} {snapshot : Snapshot}
  {config rule : String}

/-- The price of the model is that of a rule of a configuration. -/
def PricedUnder (query : Query) (setup : Setup) (setupFile : String) (snapshot : Snapshot)
    (config rule : String) : Prop :=
  ∃ answer price, query.price? setup setupFile snapshot = .ok answer ∧
    answer.quote = .tiered config rule price

/-- The request is charged under a rule of a configuration, or that charge overflows. -/
inductive CostedUnder (query : Query) (setup : Setup) (snapshot : Snapshot) :
    String → String → Prop
  | charged {answer : CostAnswer} (hcost : query.cost? setup snapshot = .ok answer) :
      CostedUnder query setup snapshot answer.tier.config answer.tier.rule
  | overflow {tier : Resolution} {cause : QuotaOverflow}
      (htier : snapshot.resolve? query.model query.tokens = some tier)
      (hcharge : charge tier.pricing query.tokens setup.basis
        (groupRatio setup.groups query.group) = .error cause)
      (hcost : query.cost? setup snapshot = .error (.overflow query.model cause)) :
      CostedUnder query setup snapshot tier.config tier.rule

/-- The model has a record, and by that it is charged by call. -/
def IsPerCall (query : Query) (setup : Setup) : Prop :=
  ∃ record, setup.model? query.model = some record ∧ record.billing = .perCall

/-! ## Costs -/

/-- The cost of a request is found under the tier that it resolves to, and nowhere else. -/
theorem costedUnder_iff :
    query.CostedUnder setup snapshot config rule ↔
      ∃ tier, snapshot.resolve? query.model query.tokens = some tier ∧ tier.config = config ∧
        tier.rule = rule := by
  constructor
  · intro h
    cases h with
    | @charged answer hcost =>
      unfold cost? at hcost
      split at hcost
      · cases hcost
      · rename_i tier htier
        dsimp only at hcost
        split at hcost
        · cases hcost
        · cases hcost
          exact ⟨tier, htier, rfl, rfl⟩
    | @overflow tier _ htier _ _ => exact ⟨tier, htier, rfl, rfl⟩
  · rintro ⟨tier, htier, rfl, rfl⟩
    cases hcharge : charge tier.pricing query.tokens setup.basis
        (groupRatio setup.groups query.group) with
    | error cause =>
      refine .overflow htier hcharge ?_
      simp only [cost?, htier, hcharge]
    | ok charge =>
      have hcost : query.cost? setup snapshot =
          .ok ⟨query.model, query.group, groupRatio setup.groups query.group, query.tokens, tier,
            charge⟩ := by
        simp only [cost?, htier, hcharge]
      exact .charged hcost

/-! ## Prices -/

theorem name_of_model? {record : ModelRecord} {name : String}
    (h : setup.model? name = some record) : record.name = name := by
  simpa using List.find?_some h

/-- A price is quoted under a tier if the model is charged by token and resolves to it. -/
theorem exists_quote_eq_tiered_iff {record : ModelRecord} {terms : Terms} {ratio : Float}
    {tokens : TokenCounts} :
    (∃ price, quote snapshot record terms ratio tokens = .tiered config rule price) ↔
      record.billing = .metered ∧
        ∃ tier, snapshot.resolve? record.name tokens = some tier ∧ tier.config = config ∧
          tier.rule = rule := by
  simp only [quote_eq_tiered_iff]
  constructor
  · rintro ⟨price, hmetered, tier, htier, rfl, rfl, -⟩
    exact ⟨hmetered, tier, htier, rfl, rfl⟩
  · rintro ⟨hmetered, tier, htier, rfl, rfl⟩
    exact ⟨_, hmetered, tier, htier, rfl, rfl, rfl⟩

/-- The record that the price of a model is taken from has its name, and is charged by token unless
the setup has one that is not. -/
theorem record?_cases (query : Query) (setup : Setup) (setupFile : String) (snapshot : Snapshot) :
    (∃ record, query.record? setup setupFile snapshot = .ok record ∧ record.name = query.model ∧
      (record.billing = .perCall ↔ query.IsPerCall setup)) ∨
    (snapshot.resolve? query.model query.tokens = none ∧ ¬ query.IsPerCall setup ∧
      query.record? setup setupFile snapshot = .error (.unknownModel query.model setupFile)) := by
  unfold record? IsPerCall
  cases hmodel : setup.model? query.model with
  | some record => simp [name_of_model? hmodel]
  | none =>
    cases snapshot.resolve? query.model query.tokens with
    | some tier => simp [ModelRecord.blank]
    | none => simp

/-- The price of a model is found under the tier that the request resolves to, unless the model is
charged by call. -/
theorem pricedUnder_iff :
    query.PricedUnder setup setupFile snapshot config rule ↔
      ¬ query.IsPerCall setup ∧
        ∃ tier, snapshot.resolve? query.model query.tokens = some tier ∧ tier.config = config ∧
          tier.rule = rule := by
  unfold PricedUnder price?
  obtain ⟨record, hrecord, hname, hbilling⟩ | ⟨hnone, -, hrecord⟩ :=
    record?_cases query setup setupFile snapshot
  · have hmetered : record.billing = .metered ↔ ¬ query.IsPerCall setup := by
      rw [← hbilling]
      cases record.billing <;> simp
    rw [hrecord, ← hmetered, ← hname, ← exists_quote_eq_tiered_iff]
    constructor
    · rintro ⟨answer, price, hanswer, hquote⟩
      cases hanswer
      exact ⟨price, hquote⟩
    · rintro ⟨price, hquote⟩
      exact ⟨_, price, rfl, hquote⟩
  · rw [hrecord, hnone]
    constructor
    · rintro ⟨answer, price, hanswer, -⟩
      cases hanswer
    · rintro ⟨-, tier, htier, -⟩
      cases htier

end Query

/-- The price and the cost of a request are found under the same rule of the same configuration, or
neither under any, exactly if it is not so that a tier applies to a model charged by call. -/
theorem price_and_cost_agree_iff (query : Query) (setup : Setup) (setupFile : String)
    (snapshot : Snapshot) :
    (∀ config rule, query.CostedUnder setup snapshot config rule ↔
      query.PricedUnder setup setupFile snapshot config rule) ↔
    ¬ (query.IsPerCall setup ∧ (snapshot.resolve? query.model query.tokens).isSome) := by
  simp only [Query.costedUnder_iff, Query.pricedUnder_iff]
  constructor
  · rintro hagree ⟨hcall, hsome⟩
    obtain ⟨tier, htier⟩ := Option.isSome_iff_exists.mp hsome
    exact ((hagree tier.config tier.rule).mp ⟨tier, htier, rfl, rfl⟩).1 hcall
  · intro hno config rule
    refine ⟨fun htier => ⟨fun hcall => hno ⟨hcall, ?_⟩, htier⟩, fun h => h.2⟩
    obtain ⟨tier, htier, -, -⟩ := htier
    rw [htier]
    rfl

/-- A setup in which images are charged by call. -/
def imageSetup : Setup :=
  { Setup.blank with models := [⟨"mj", .perCall, 0.0, 1.0, 0.1, []⟩] }

/-- A snapshot with one rule, for all models. -/
def catchAllSnapshot : Snapshot :=
  ⟨true, .single "any" ⟨true, ⟨[.startingWith ""]⟩, 1, [⟨"all", .unlimited, .ratio 1.0 1.0 none⟩]⟩⟩

/-- A thousand tokens of an image model are priced by call, and yet they are costed under a tier. -/
theorem per_call_model_is_costed_under_tier :
    (Query.mk "mj" "default" ⟨1000, 0⟩ none).CostedUnder imageSetup catchAllSnapshot "any" "all" ∧
    (∃ answer price, (Query.mk "mj" "default" ⟨1000, 0⟩ none).price? imageSetup "config.toml"
      catchAllSnapshot = .ok answer ∧ answer.quote = .perCall price) ∧
    ¬ (Query.mk "mj" "default" ⟨1000, 0⟩ none).PricedUnder imageSetup "config.toml" catchAllSnapshot
      "any" "all" := by
  have hresolve : catchAllSnapshot.resolve? "mj" ⟨1000, 0⟩ =
      some ⟨"any", "all", .ratio 1.0 1.0 none⟩ := by
    unfold Snapshot.resolve? catchAllSnapshot
    rw [Snapshot.selected?_eq_some_iff.mpr (Snapshot.leads_single (by decide) ⟨rfl, rfl⟩)]
    rfl
  refine ⟨Query.costedUnder_iff.mpr ⟨_, hresolve, rfl, rfl⟩, ⟨_, _, rfl, rfl⟩, fun hpriced => ?_⟩
  exact (Query.pricedUnder_iff.mp hpriced).1 ⟨_, rfl, rfl⟩

end Tariff
