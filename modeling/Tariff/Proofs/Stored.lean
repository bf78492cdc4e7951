import Tariff.Proofs.Json.Finite
import Tariff.Proofs.Json.ReadBack
import Tariff.Proofs.Json.Values
import Tariff.Proofs.Pattern
import Tariff.Tier.Stored

/-!
# Snapshots, stored and read again

* `Snapshot.Representable`: what the stored form can hold. Its numbers are finite, its models are
  written patterns, and no rule is priced in dollars at nothing.
* `FlatRule.read_json`, `Rule.read_json`, `TierConfig.read_json`, `Snapshot.read_json`: each is read
  back from what is written.
* `Rule.representable_of_read`, …: whatever each is read from, it is representable.
* `Snapshot.loads_what_was_stored`: exactly the representable snapshots are loaded, as they were.
-/

namespace Tariff

open Json (ofFloat ofUInt64 asFloat_ofFloat asUInt64_ofUInt64)

/-! ## What can be stored -/

/-- Numbers of the pricing are finite, and it is not in dollars with both prices zero. -/
structure Pricing.Representable (pricing : Pricing) : Prop where
  finite : ∀ x ∈ pricing.values, x.isFinite = true
  priced : ∀ input output, pricing = .absolute input output → ¬ (input == 0.0 && output == 0.0)

/-- Models of the configuration are written patterns, and its rules can be stored. -/
structure TierConfig.Representable (config : TierConfig) : Prop where
  models : ∃ raw, ModelPatterns.parse raw = .ok config.models
  rules : ∀ rule ∈ config.rules, rule.pricing.Representable

/-- All configurations of the snapshot can be stored. -/
def Snapshot.Representable (snapshot : Snapshot) : Prop :=
  ∀ e ∈ snapshot.configs.entries, e.2.Representable

/-! ## Rules -/

theorem isFinite_zero : (0.0 : Float).isFinite = true := rfl

theorem isFinite_one : (1.0 : Float).isFinite = true := rfl

namespace FlatRule

/-- The numbers of both ways of pricing. -/
def numbers (flat : FlatRule) : List Float :=
  [flat.inputRatio, flat.completionRatio, flat.inputPrice, flat.outputPrice] ++
    flat.outputRatio.toList

/-- The values of the flat form, in the order of its fields. -/
def documents (flat : FlatRule) : List Document :=
  [.text flat.name, (ofUInt64 flat.bounds.input.min).document,
    (ofUInt64 flat.bounds.input.max).document, (ofUInt64 flat.bounds.output.min).document,
    (ofUInt64 flat.bounds.output.max).document, (ofFloat flat.inputRatio).document,
    (ofFloat flat.completionRatio).document, (ofFloat flat.inputPrice).document,
    (ofFloat flat.outputPrice).document] ++
  flat.outputRatio.toList.map fun ratio => (ofFloat ratio).document

theorem document_json (flat : FlatRule) :
    flat.json.document = .record (named fields flat.documents) := by
  obtain ⟨name, bounds, _, _, _, _, ratio⟩ := flat
  cases ratio <;> rfl

theorem nodup_names : (fields.map (·.name)).Nodup := by decide

theorem length_documents (flat : FlatRule) : flat.documents.length ≤ fields.length := by
  unfold documents
  cases flat.outputRatio <;> simp [fields]

/-- A flat form of finite numbers is read back. -/
theorem read_json {flat : FlatRule} (h : ∀ x ∈ flat.numbers, x.isFinite = true) :
    readRecord .json fields blank flat.json.document = .ok flat := by
  rw [document_json, readRecord_named blank nodup_names flat.length_documents]
  obtain ⟨name, bounds, inputRatio, completionRatio, inputPrice, outputPrice, outputRatio⟩ := flat
  simp only [numbers, List.cons_append, List.nil_append, List.forall_mem_cons] at h
  obtain ⟨hratio, hcompletion, hinput, houtput, hrest⟩ := h
  refine readValues_of_cons rfl ?_
  refine readValues_of_cons (asUInt64_ofUInt64 _) ?_
  refine readValues_of_cons (asUInt64_ofUInt64 _) ?_
  refine readValues_of_cons (asUInt64_ofUInt64 _) ?_
  refine readValues_of_cons (asUInt64_ofUInt64 _) ?_
  refine readValues_of_cons (asFloat_ofFloat hratio) ?_
  refine readValues_of_cons (asFloat_ofFloat hcompletion) ?_
  refine readValues_of_cons (asFloat_ofFloat hinput) ?_
  refine readValues_of_cons (asFloat_ofFloat houtput) ?_
  cases outputRatio with
  | none => rfl
  | some ratio =>
    have hread : (ofFloat ratio).document.asOptional (·.asFloat) = .ok (some ratio) := by
      rw [Json.document_ofFloat (hrest ratio List.mem_cons_self)]
      rfl
    exact readValues_of_cons hread rfl

/-- Reading keeps the numbers of a flat form finite. -/
theorem finite_of_read {format : DataFormat} {d : Document} {flat : FlatRule} (hd : d.IsFinite)
    (h : readRecord format fields blank d = .ok flat) : ∀ x ∈ flat.numbers, x.isFinite = true := by
  have hblank : ∀ x ∈ blank.numbers, x.isFinite = true := by decide
  refine keeps_readRecord (P := fun flat => ∀ x ∈ flat.numbers, x.isFinite = true)
    Document.hereditary_isFinite ?_ hblank hd h
  simp only [fields, List.forall_mem_cons]
  refine ⟨?name, ?minInput, ?maxInput, ?minOutput, ?maxOutput, ?ratio, ?completion, ?input, ?output,
    ?outputRatio, List.forall_mem_nil _⟩
  case name | minInput | maxInput | minOutput | maxOutput =>
    exact Field.keeps_of fun d v record hd hread hrecord => hrecord
  case ratio | completion | input | output =>
    refine Field.keeps_of fun d v record hd hread hrecord => ?_
    have hv := Document.isFinite_of_asFloat hd hread
    simp only [numbers, List.cons_append, List.nil_append, List.forall_mem_cons] at hrecord ⊢
    simp only [hv, hrecord, true_and]
    exact hrecord.2.2.2.2
  case outputRatio =>
    refine Field.keeps_of fun d v record hd hread hrecord => ?_
    simp only [numbers, List.cons_append, List.nil_append, List.forall_mem_cons] at hrecord ⊢
    refine ⟨hrecord.1, hrecord.2.1, hrecord.2.2.1, hrecord.2.2.2.1, fun x hx => ?_⟩
    obtain rfl | ⟨y, hy, rfl⟩ := Document.asOptional_cases hread
    · cases hx
    · rw [Option.toList_some, List.mem_singleton] at hx
      rw [hx]
      exact Document.isFinite_of_asFloat hd hy

theorem fits_json (flat : FlatRule) : flat.json.Fits := by
  refine Json.fieldsFit_iff.mpr ?_
  simp only [List.cons_append, List.nil_append, List.forall_mem_cons]
  refine ⟨trivial, Json.fits_ofUInt64 _, Json.fits_ofUInt64 _, Json.fits_ofUInt64 _,
    Json.fits_ofUInt64 _, Json.fits_ofFloat _, Json.fits_ofFloat _, Json.fits_ofFloat _,
    Json.fits_ofFloat _, fun f hf => ?_⟩
  obtain ⟨ratio, -, rfl⟩ := List.mem_map.mp hf
  exact Json.fits_ofFloat ratio

end FlatRule

namespace Rule

theorem rule_flat {rule : Rule} (h : rule.pricing.Representable) : rule.flat.rule = rule := by
  obtain ⟨name, bounds, pricing⟩ := rule
  cases pricing with
  | ratio input completion output =>
    have hzero : ((0.0 : Float) != 0.0 || (0.0 : Float) != 0.0) = false := by decide
    simp only [flat, FlatRule.rule, FlatRule.isAbsolute, hzero, Bool.false_eq_true, if_false]
  | absolute input output =>
    have hpriced := h.priced input output rfl
    have habsolute : (input != 0.0 || output != 0.0) = true := by
      rw [bne, bne, ← Bool.not_and, Bool.not_eq_true']
      exact Bool.eq_false_iff.mpr hpriced
    simp only [flat, FlatRule.rule, FlatRule.isAbsolute, habsolute, if_true]

/-- A rule that can be stored is read back. -/
theorem read_json {rule : Rule} (h : rule.pricing.Representable) :
    Rule.read rule.json.document = .ok rule := by
  have hnumbers : ∀ x ∈ rule.flat.numbers, x.isFinite = true := by
    -- The numbers of the other way of pricing are zeros and a one.
    have hfinite := h.finite
    obtain ⟨name, bounds, pricing⟩ := rule
    cases pricing with
    | ratio input completion output =>
      simp only [Pricing.values, List.forall_mem_cons] at hfinite
      simp only [flat, FlatRule.numbers, List.cons_append, List.nil_append, List.forall_mem_cons]
      exact ⟨hfinite.1, hfinite.2.1, isFinite_zero, isFinite_zero, hfinite.2.2⟩
    | absolute input output =>
      simp only [Pricing.values, List.forall_mem_cons] at hfinite
      simp only [flat, FlatRule.numbers, List.cons_append, List.nil_append, List.forall_mem_cons]
      exact ⟨isFinite_zero, isFinite_one, hfinite.1, hfinite.2.1, hfinite.2.2⟩
  exact map_eq_ok_iff.mpr ⟨rule.flat, FlatRule.read_json hnumbers, rule_flat h⟩

/-- Whatever a rule is read from, it can be stored. -/
theorem representable_of_read {d : Document} {rule : Rule} (hd : d.IsFinite)
    (h : Rule.read d = .ok rule) : rule.pricing.Representable := by
  obtain ⟨flat, hflat, rfl⟩ := map_eq_ok_iff.mp h
  have hnumbers := FlatRule.finite_of_read hd hflat
  simp only [FlatRule.numbers, List.cons_append, List.nil_append, List.forall_mem_cons] at hnumbers
  obtain ⟨hratio, hcompletion, hinput, houtput, hrest⟩ := hnumbers
  unfold FlatRule.rule
  by_cases habsolute : flat.isAbsolute = true
  · simp only [habsolute, if_true]
    refine ⟨by simp [Pricing.values, hinput, houtput], fun input output heq => ?_⟩
    cases heq
    unfold FlatRule.isAbsolute bne at habsolute
    rw [← Bool.not_and, Bool.not_eq_true'] at habsolute
    rw [habsolute]
    decide
  · simp only [habsolute, Bool.false_eq_true, if_false]
    refine ⟨?_, fun input output heq => by cases heq⟩
    simp only [Pricing.values, List.forall_mem_cons]
    exact ⟨hratio, hcompletion, hrest⟩

end Rule

/-! ## Configurations -/

namespace TierConfig

theorem document_json (config : TierConfig) : config.json.document =
    .record (named fields [.flag config.enabled, .text config.models.text,
      .integer config.priority.toInt, (Json.array (config.rules.map Rule.json)).document]) := rfl

/-- A configuration that can be stored is read back. -/
theorem read_json {config : TierConfig} (h : config.Representable) :
    TierConfig.read config.json.document = .ok config := by
  obtain ⟨raw, hraw⟩ := h.models
  have hmodels : ModelPatterns.read (.text config.models.text) = .ok config.models :=
    mapError_eq_ok_iff.mpr (ModelPatterns.parse_text hraw)
  unfold TierConfig.read
  rw [document_json, readRecord_named blank (by decide) (Nat.le_refl _)]
  refine readValues_of_cons rfl ?_
  refine readValues_of_cons hmodels ?_
  refine readValues_of_cons (Json.asInt64_integer _) ?_
  exact readValues_of_cons
    (Json.asList_array fun rule hrule => Rule.read_json (h.rules rule hrule)) rfl

/-- Models that are read are written patterns. -/
theorem exists_parse_of_read {d : Document} {models : ModelPatterns}
    (h : ModelPatterns.read d = .ok models) : ∃ raw, ModelPatterns.parse raw = .ok models := by
  obtain ⟨raw?, -, h⟩ := bind_eq_ok_iff.mp h
  cases raw? with
  | none =>
    cases h
    exact ⟨"", rfl⟩
  | some raw => exact ⟨raw, mapError_eq_ok_iff.mp h⟩

/-- Whatever a configuration is read from, it can be stored. -/
theorem representable_of_read {d : Document} {config : TierConfig} (hd : d.IsFinite)
    (h : TierConfig.read d = .ok config) : config.Representable := by
  have hblank : blank.Representable := ⟨⟨"", rfl⟩, List.forall_mem_nil _⟩
  refine keeps_readRecord Document.hereditary_isFinite ?_ hblank hd h
  simp only [fields, List.forall_mem_cons]
  refine ⟨?enabled, ?models, ?priority, ?rules, List.forall_mem_nil _⟩
  case enabled | priority =>
    exact Field.keeps_of fun d v config hd hread hconfig => ⟨hconfig.models, hconfig.rules⟩
  case models =>
    exact Field.keeps_of fun d v config hd hread hconfig =>
      ⟨exists_parse_of_read hread, hconfig.rules⟩
  case rules =>
    refine Field.keeps_of fun d v config hd hread hconfig => ⟨hconfig.models, fun rule hrule => ?_⟩
    obtain ⟨e, he, hrule⟩ :=
      Document.exists_of_asList Document.hereditary_isFinite hd hread rule hrule
    exact Rule.representable_of_read he hrule

/-- Named configurations that can be stored are read back. -/
theorem readTable_tableJson {configs : Table TierConfig}
    (h : ∀ e ∈ configs.entries, e.2.Representable) :
    readTable (tableJson configs).document = .ok configs :=
  Json.asTable_ofTable fun e he => TierConfig.read_json (h e he)

theorem fits_tableJson (configs : Table TierConfig) : (tableJson configs).Fits := by
  refine Json.fits_ofTable fun e he => ?_
  refine ⟨trivial, trivial, Json.fits_integer _, ?_, trivial⟩
  exact Json.fits_array fun rule _ => rule.flat.fits_json

end TierConfig

/-! ## Snapshots -/

namespace Snapshot

theorem document_json (snapshot : Snapshot) : snapshot.json.document =
    .record (named fields
      [.flag snapshot.enabled, (TierConfig.tableJson snapshot.configs).document]) := rfl

/-- A snapshot that can be stored is read back. -/
theorem read_json {snapshot : Snapshot} (h : snapshot.Representable) :
    Snapshot.read snapshot.json.document = .ok snapshot := by
  unfold Snapshot.read
  rw [document_json, readRecord_named empty (by decide) (Nat.le_refl _)]
  refine readValues_of_cons rfl ?_
  exact readValues_of_cons (TierConfig.readTable_tableJson h) rfl

theorem fits_json (snapshot : Snapshot) : snapshot.json.Fits :=
  ⟨trivial, TierConfig.fits_tableJson snapshot.configs, trivial⟩

/-- The text of a snapshot that can be stored is read back. -/
theorem ofText_toText {snapshot : Snapshot} (h : snapshot.Representable) :
    Snapshot.ofText snapshot.toText = .ok snapshot := by
  unfold Snapshot.ofText Snapshot.toText
  rw [Json.decode_pretty _ snapshot.fits_json, read_json h]

/-- Whatever text a snapshot is read from, it can be stored. -/
theorem representable_of_ofText {text : String} {snapshot : Snapshot}
    (h : Snapshot.ofText text = .ok snapshot) : snapshot.Representable := by
  obtain ⟨d, hd, hread⟩ := Json.exists_of_decode h
  have hempty : empty.Representable := List.forall_mem_nil _
  refine keeps_readRecord Document.hereditary_isFinite ?_ hempty hd hread
  simp only [fields, List.forall_mem_cons]
  refine ⟨?enabled, ?configs, List.forall_mem_nil _⟩
  case enabled => exact Field.keeps_of fun d v snapshot hd hread hsnapshot => hsnapshot
  case configs =>
    refine Field.keeps_of fun d v snapshot hd hread hsnapshot e he => ?_
    obtain ⟨e', he', hconfig⟩ :=
      Document.exists_of_asTable Document.hereditary_isFinite hd hread e he
    exact TierConfig.representable_of_read he' hconfig

/-- What can be stored is loaded as it was, and nothing but that is ever loaded: once a text is
accepted, saving and loading again changes nothing. -/
theorem loads_what_was_stored :
    (∀ snapshot : Snapshot, snapshot.Representable →
      Snapshot.ofText snapshot.toText = .ok snapshot) ∧
    ∀ (text : String) (snapshot : Snapshot), Snapshot.ofText text = .ok snapshot →
      snapshot.Representable ∧ Snapshot.ofText snapshot.toText = .ok snapshot := by
  refine ⟨fun snapshot h => ofText_toText h, fun text snapshot h => ?_⟩
  have hrepresentable := representable_of_ofText h
  exact ⟨hrepresentable, ofText_toText hrepresentable⟩

/-- A configuration with a quote in its name, and a rule of each way of pricing. -/
def mixed : Snapshot :=
  ⟨true, .single "long \"context\"" ⟨true, ⟨[.startingWith "gpt-4", .exact "o1"]⟩, -3,
    [⟨"T1", ⟨⟨0, 32000⟩, .unlimited⟩, .ratio 0.4 1.5 (some 0.0)⟩,
      ⟨"T2", .unlimited, .absolute 0.0 2.5⟩]⟩⟩

theorem mixed_loads_unchanged :
    mixed.Representable ∧ Snapshot.ofText mixed.toText = .ok mixed := by
  have hratio : (Pricing.ratio 0.4 1.5 (some 0.0)).Representable :=
    ⟨by decide, fun input output heq => by cases heq⟩
  have hprice : (Pricing.absolute 0.0 2.5).Representable := by
    refine ⟨by decide, fun input output heq => ?_⟩
    cases heq
    decide
  have hmixed : mixed.Representable := by
    intro e he
    rw [List.mem_singleton.mp he]
    refine ⟨⟨"gpt-4*,o1", rfl⟩, fun rule hrule => ?_⟩
    simp only [List.mem_cons, List.not_mem_nil, or_false] at hrule
    rcases hrule with rfl | rfl
    · exact hratio
    · exact hprice
  exact loads_what_was_stored.2 mixed.toText mixed (loads_what_was_stored.1 mixed hmixed)

end Snapshot

end Tariff
