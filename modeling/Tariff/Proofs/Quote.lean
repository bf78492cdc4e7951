import Tariff.Price.Query
import Tariff.Proofs.Selection

/-!
# Quotes under tiers

A quote searches configurations and rules by itself, and a cost takes what the request resolves to.
Both come to one rule, even where others of its list have its name.

* `quote_eq`: a quote, told by what the request resolves to.
* `ModelRecord.flatQuote`: what a model costs without tiers; snapshots and requests play no part.
* `Query.cost?_eq_ok_iff`: the pricing that a request is charged by.
* `quote_follows_resolution`: when a quote is under a tier and what it is then, and else.
-/

namespace Tariff

variable {snapshot : Snapshot} {record : ModelRecord} {terms : Terms} {ratio : Float}
  {tokens : TokenCounts} {config rule : String} {price : TierPrice}

/-- What a model costs where no tier applies. -/
def ModelRecord.flatQuote (record : ModelRecord) (terms : Terms) (ratio : Float) : Quote :=
  match record.billing with
  | .perCall => .perCall (record.price * ratio)
  | .metered => .metered (flatPrice record terms ratio)

/-- The search of a quote ends where that of a resolution does. -/
theorem quote_eq (snapshot : Snapshot) (record : ModelRecord) (terms : Terms) (ratio : Float)
    (tokens : TokenCounts) :
    quote snapshot record terms ratio tokens =
      match record.billing, snapshot.resolve? record.name tokens with
      | .metered, some tier => .tiered tier.config tier.rule (tierPrice tier.pricing terms ratio)
      | _, _ => record.flatQuote terms ratio := by
  unfold quote ModelRecord.flatQuote Snapshot.resolve?
  cases record.billing with
  | perCall => rfl
  | metered =>
    cases snapshot.selected? record.name with
    | none => rfl
    | some found =>
      dsimp only [Option.bind_some]
      cases firstAdmitting? found.2.rules tokens with
      | none => rfl
      | some rule => rfl

theorem quote_eq_tiered_iff :
    quote snapshot record terms ratio tokens = .tiered config rule price ↔
      record.billing = .metered ∧ ∃ tier, snapshot.resolve? record.name tokens = some tier ∧
        config = tier.config ∧ rule = tier.rule ∧ price = tierPrice tier.pricing terms ratio := by
  rw [quote_eq]
  unfold ModelRecord.flatQuote
  cases record.billing with
  | perCall => simp
  | metered =>
    cases snapshot.resolve? record.name tokens with
    | none => simp
    | some tier => simp [eq_comm]

/-- A request is charged by the pricing that it resolves to. -/
theorem Query.cost?_eq_ok_iff {query : Query} {setup : Setup} {answer : CostAnswer} :
    query.cost? setup snapshot = .ok answer ↔
      snapshot.resolve? query.model query.tokens = some answer.tier ∧
      charge answer.tier.pricing query.tokens setup.basis (groupRatio setup.groups query.group) =
        .ok answer.charge ∧
      answer.model = query.model ∧ answer.group = query.group ∧ answer.tokens = query.tokens ∧
      answer.ratio = groupRatio setup.groups query.group := by
  obtain ⟨model, group, ratio, tokens, tier, total⟩ := answer
  unfold cost?
  cases snapshot.resolve? query.model query.tokens with
  | none => simp
  | some found =>
    dsimp only
    constructor
    · intro h
      split at h
      · cases h
      · rename_i hcharge
        cases h
        exact ⟨rfl, hcharge, rfl, rfl, rfl, rfl⟩
    · rintro ⟨⟨⟩, hcharge, rfl, rfl, rfl, rfl⟩
      rw [hcharge]

/-- A quote is under a tier exactly if the model is charged by token and the request resolves to
that tier; its price is that of the pricing of the tier, which the request is charged by. Every
other quote is what the model costs without tiers. -/
theorem quote_follows_resolution (snapshot : Snapshot) (record : ModelRecord) (terms : Terms)
    (ratio : Float) (tokens : TokenCounts) :
    (∀ config rule price,
      quote snapshot record terms ratio tokens = .tiered config rule price ↔
        record.billing = .metered ∧ ∃ tier, snapshot.resolve? record.name tokens = some tier ∧
          config = tier.config ∧ rule = tier.rule ∧
          price = tierPrice tier.pricing terms ratio) ∧
    (∀ (query : Query) (setup : Setup) (answer : CostAnswer), query.model = record.name →
      query.tokens = tokens → record.billing = .metered →
      query.cost? setup snapshot = .ok answer →
      quote snapshot record terms ratio tokens =
          .tiered answer.tier.config answer.tier.rule (tierPrice answer.tier.pricing terms ratio) ∧
        charge answer.tier.pricing tokens setup.basis (groupRatio setup.groups query.group) =
          .ok answer.charge) ∧
    ((∀ config rule price, quote snapshot record terms ratio tokens ≠ .tiered config rule price) →
      quote snapshot record terms ratio tokens = record.flatQuote terms ratio) := by
  refine ⟨fun config rule price => quote_eq_tiered_iff, ?charged, ?flat⟩
  case charged =>
    rintro query setup answer hmodel rfl hmetered hcost
    obtain ⟨htier, hcharge, -⟩ := Query.cost?_eq_ok_iff.mp hcost
    rw [hmodel] at htier
    exact ⟨quote_eq_tiered_iff.mpr ⟨hmetered, answer.tier, htier, rfl, rfl, rfl⟩, hcharge⟩
  case flat =>
    intro huntiered
    rw [quote_eq] at huntiered ⊢
    split
    · rename_i tier hbilling htier
      simp only [hbilling, htier] at huntiered
      exact absurd rfl (huntiered _ _ _)
    · rfl

/-- A snapshot with two rules of one name, the first of them for short requests. -/
def twinSnapshot : Snapshot :=
  ⟨true, .single "any" ⟨true, ⟨[.startingWith ""]⟩, 1,
    [⟨"t", ⟨⟨0, 10⟩, ⟨0, 0⟩⟩, .ratio 1.0 1.0 none⟩, ⟨"t", .unlimited, .ratio 2.0 1.0 none⟩]⟩⟩

theorem resolve?_twinSnapshot :
    twinSnapshot.resolve? "m" ⟨20, 0⟩ = some ⟨"any", "t", .ratio 2.0 1.0 none⟩ := by
  unfold Snapshot.resolve? twinSnapshot
  rw [Snapshot.selected?_eq_some_iff.mpr (Snapshot.leads_single (by decide) ⟨rfl, rfl⟩)]
  decide

/-- A request beyond the first of two rules of one name is quoted and charged by the second. -/
theorem long_request_is_quoted_by_second_twin :
    ∃ answer, (Query.mk "m" "default" ⟨20, 0⟩ none).cost? .blank twinSnapshot = .ok answer ∧
      answer.tier = ⟨"any", "t", .ratio 2.0 1.0 none⟩ ∧
      quote twinSnapshot (.blank "m") ⟨Setup.blank.basis, .million⟩ 1.0 ⟨20, 0⟩ =
        .tiered "any" "t"
          (tierPrice (.ratio 2.0 1.0 none) ⟨Setup.blank.basis, .million⟩ 1.0) := by
  have hcharge : (charge (.ratio 2.0 1.0 none) ⟨20, 0⟩ Setup.blank.basis
      (groupRatio Setup.blank.groups "default")).toOption.isSome = true := by decide +kernel
  cases hresult : charge (.ratio 2.0 1.0 none) ⟨20, 0⟩ Setup.blank.basis
      (groupRatio Setup.blank.groups "default") with
  | error cause =>
    rw [hresult] at hcharge
    cases hcharge
  | ok total =>
    have hcost : (Query.mk "m" "default" ⟨20, 0⟩ none).cost? .blank twinSnapshot =
        .ok ⟨"m", "default", groupRatio Setup.blank.groups "default", ⟨20, 0⟩,
          ⟨"any", "t", .ratio 2.0 1.0 none⟩, total⟩ :=
      Query.cost?_eq_ok_iff.mpr ⟨resolve?_twinSnapshot, hresult, rfl, rfl, rfl, rfl⟩
    have hquote := (quote_follows_resolution twinSnapshot (.blank "m")
      ⟨Setup.blank.basis, .million⟩ 1.0 ⟨20, 0⟩).2.1 _ .blank _ rfl rfl rfl hcost
    exact ⟨_, hcost, rfl, hquote.1⟩

end Tariff
