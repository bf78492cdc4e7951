import Tariff.Command.Prices
import Tariff.Proofs.Agreement
import Tariff.Proofs.Stored

/-!
# Models that only tiers know

A model without a record is priced by a stand-in record at nothing, if a tier applies. Since every
price that is shown looks for a tier with the same model and request, none is the stand-in's.

* `Query.record?_of_lacks`: the stand-in, or none.
* `exists_quote_blank`: it is quoted under the tier.
* `Context.price_of_load`, `Context.groups_of_load`: what is shown answers the question.
* `unlisted_model_is_priced_by_its_tier`: what the commands about prices come to.
-/

namespace Tariff

variable {query : Query} {setup : Setup} {setupFile : String} {snapshot : Snapshot}

/-- A setup has no record of a model. -/
def Setup.Lacks (setup : Setup) (model : String) : Prop :=
  ∀ record ∈ setup.models, record.name ≠ model

instance (setup : Setup) (model : String) : Decidable (setup.Lacks model) :=
  inferInstanceAs (Decidable (∀ record ∈ setup.models, record.name ≠ model))

theorem Setup.Lacks.model?_eq_none {model : String} (h : setup.Lacks model) :
    setup.model? model = none := by
  unfold Setup.model?
  rw [List.find?_eq_none]
  intro record hrecord heq
  exact h record hrecord (eq_of_beq heq)

namespace Query

/-- A model without a record is stood in for exactly if the request resolves to a tier. -/
theorem record?_of_lacks (h : setup.Lacks query.model) (setupFile : String) :
    query.record? setup setupFile snapshot =
      match snapshot.resolve? query.model query.tokens with
      | some _ => .ok (.blank query.model)
      | none => .error (.unknownModel query.model setupFile) := by
  unfold record?
  rw [h.model?_eq_none]
  cases snapshot.resolve? query.model query.tokens with
  | some tier => rfl
  | none => rfl

end Query

/-- The stand-in is quoted under the tier that the request resolves to. -/
theorem exists_quote_blank {model : String} {tokens : TokenCounts} {tier : Resolution}
    (h : snapshot.resolve? model tokens = some tier) (terms : Terms) (ratio : Float) :
    ∃ price, quote snapshot (.blank model) terms ratio tokens =
      .tiered tier.config tier.rule price :=
  ⟨_, quote_eq_tiered_iff.mpr ⟨rfl, tier, h, rfl, rfl, rfl⟩⟩

/-- A quote is under the rule and the configuration of a tier. -/
def Quote.IsUnder (quote : Quote) (tier : Resolution) : Prop :=
  ∃ price, quote = .tiered tier.config tier.rule price

/-! ## Commands -/

namespace Context

variable {context : Context} {pricing : Contents}

theorem snapshot_of_load (hload : Snapshot.load pricing = .ok snapshot) :
    context.snapshot pricing = .ok snapshot := by
  unfold Context.snapshot
  rw [hload]
  rfl

/-- The command for a price shows the answer to the question, or fails for want of one. -/
theorem price_of_load (hload : Snapshot.load pricing = .ok snapshot) :
    context.price pricing query =
      ((query.price? context.setup context.setupFile snapshot).mapError QueryError.failure).map
        fun answer => .ofPage context.options answer.page answer.json := by
  unfold price
  rw [snapshot_of_load hload]
  rfl

/-- The command for the prices of all groups does so, too. -/
theorem groups_of_load (hload : Snapshot.load pricing = .ok snapshot) :
    context.groups pricing query =
      ((query.groups? context.setup context.setupFile snapshot).mapError QueryError.failure).map
        fun answer => .ofPage context.options answer.page answer.json := by
  unfold groups
  rw [snapshot_of_load hload]
  rfl

end Context

/-- For a model without a record, the commands for a price and for the prices of all groups fail
exactly if the request resolves to no tier. Otherwise the price that is shown, and the price in each
row of the table, is under the tier that it resolves to, so that the stand-in is never shown. -/
theorem unlisted_model_is_priced_by_its_tier (context : Context) (query : Query)
    {pricing : Contents} (hload : Snapshot.load pricing = .ok snapshot)
    (hlacks : context.setup.Lacks query.model) :
    ((∃ failure, context.price pricing query = .error failure) ↔
      snapshot.resolve? query.model query.tokens = none) ∧
    ((∃ failure, context.groups pricing query = .error failure) ↔
      snapshot.resolve? query.model query.tokens = none) ∧
    ∀ tier, snapshot.resolve? query.model query.tokens = some tier →
      (∃ answer, query.price? context.setup context.setupFile snapshot = .ok answer ∧
        context.price pricing query = .ok (.ofPage context.options answer.page answer.json) ∧
        answer.quote.IsUnder tier) ∧
      ∃ answer, query.groups? context.setup context.setupFile snapshot = .ok answer ∧
        context.groups pricing query = .ok (.ofPage context.options answer.page answer.json) ∧
        ∀ row ∈ answer.rows, row.quote.IsUnder tier := by
  rw [Context.price_of_load hload, Context.groups_of_load hload]
  unfold Query.price? Query.groups?
  rw [Query.record?_of_lacks hlacks]
  cases hresolve : snapshot.resolve? query.model query.tokens with
  | none => exact ⟨iff_of_true ⟨_, rfl⟩ rfl, iff_of_true ⟨_, rfl⟩ rfl, nofun⟩
  | some tier =>
    refine ⟨iff_of_false nofun nofun, iff_of_false nofun nofun, ?_⟩
    rintro _ ⟨⟩
    refine ⟨⟨_, rfl, rfl, exists_quote_blank hresolve _ _⟩, _, rfl, rfl, fun row hrow => ?_⟩
    obtain ⟨e, -, rfl⟩ := List.mem_map.mp hrow
    exact exists_quote_blank hresolve _ _

/-- The context of a user with the setup that one starts from. -/
def usualContext : Context :=
  ⟨.initial, "config.toml", "pricing.json", ⟨false, false, false, false⟩⟩

/-- A request for `m` that is too long for the first of two rules of one name. -/
def longRequest : Query := ⟨"m", "default", ⟨20, 0⟩, none⟩

/-- Besides the models that a user starts from, the model `m` is known by its tiers. Its price, and
the one row of its table, is under the second of two rules of one name, and so it is printed. -/
theorem long_request_for_m_is_shown_under_second_twin :
    Snapshot.load (.text twinSnapshot.toText) = .ok twinSnapshot ∧ Setup.initial.Lacks "m" ∧
      (∃ answer, longRequest.price? .initial "config.toml" twinSnapshot = .ok answer ∧
        answer.quote.IsUnder ⟨"any", "t", .ratio 2.0 1.0 none⟩) ∧
      usualContext.price (.text twinSnapshot.toText) longRequest =
        .ok (.answered
          [" m (default, 1.00x)\n  Tier      any / t\n" ++
            "  Input     $4.0000 / 1M\n  Output    $4.0000 / 1M"]) ∧
      (∃ answer, longRequest.groups? .initial "config.toml" twinSnapshot = .ok answer ∧
        answer.rows ≠ [] ∧
        ∀ row ∈ answer.rows, row.quote.IsUnder ⟨"any", "t", .ratio 2.0 1.0 none⟩) ∧
      usualContext.groups (.text twinSnapshot.toText) longRequest =
        .ok (.answered
          [" m\n  Group    Ratio  Source  Input/1M  Output/1M\n" ++
            "  default  1.00x  t       $4.0000   $4.0000"]) := by
  have hratio (x : Float) (hx : x.isFinite = true) : (Pricing.ratio x 1.0 none).Representable :=
    ⟨by simpa [Pricing.values] using ⟨hx, isFinite_one⟩, nofun⟩
  have hrepresentable : twinSnapshot.Representable := by
    intro e he
    rw [List.mem_singleton.mp he]
    refine ⟨⟨"*", rfl⟩, ?_⟩
    simp only [List.forall_mem_cons]
    exact ⟨hratio 1.0 rfl, hratio 2.0 rfl, List.forall_mem_nil _⟩
  have hload : Snapshot.load (.text twinSnapshot.toText) = .ok twinSnapshot :=
    mapError_eq_ok_iff.mpr (Snapshot.ofText_toText hrepresentable)
  have hlacks : Setup.initial.Lacks "m" := by decide
  have hprice : longRequest.price? .initial "config.toml" twinSnapshot =
      .ok ⟨"m", "default", 1.0, .million, .tiered "any" "t" ⟨4.0, 4.0⟩⟩ := by decide +kernel
  have hgroups : longRequest.groups? .initial "config.toml" twinSnapshot =
      .ok ⟨"m", .million, [⟨"default", 1.0, .tiered "any" "t" ⟨4.0, 4.0⟩⟩]⟩ := by decide +kernel
  obtain ⟨-, -, hshown⟩ :=
    unlisted_model_is_priced_by_its_tier usualContext longRequest hload hlacks
  obtain ⟨⟨answer, hanswer, hprinted, hunder⟩, table, htable, hprinted', hrows⟩ :=
    hshown _ resolve?_twinSnapshot
  cases hprice.symm.trans hanswer
  cases hgroups.symm.trans htable
  refine ⟨hload, hlacks, ⟨_, hanswer, hunder⟩, hprinted.trans (congrArg Except.ok ?_),
    ⟨_, htable, List.cons_ne_nil _ _, hrows⟩, hprinted'.trans (congrArg Except.ok ?_)⟩
  · decide +kernel
  · decide +kernel

end Tariff
