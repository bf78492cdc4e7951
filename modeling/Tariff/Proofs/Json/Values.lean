import Tariff.Json.Basic
import Tariff.Json.Reader
import Tariff.Proofs.Document
import Tariff.Proofs.Json.Tokens

/-!
# Values read back

* `asUInt64_ofUInt64`, `asInt64_integer`, `asFloat_ofFloat`: numbers are read back as they were. A
  float that is no number is null and cannot be.
* `asList_array`, `asTable_ofTable`: lists and tables are read back if all their values are.
* `fits_ofUInt64`, `fits_array`, …: whole numbers in all of these are of 64 bits. `fits_of_asJson`:
  so they are in what is read off a document whose floats are numbers.
-/

namespace Tariff.Json

open Document

variable {α : Type} {json : α → Json} {read : Document → Read α}

/-! ## Numbers -/

theorem asUInt64_ofUInt64 (n : UInt64) : (ofUInt64 n).document.asUInt64 = .ok n :=
  Document.asUInt64_integer n

theorem asInt64_integer (n : Int64) : (integer n.toInt).document.asInt64 = .ok n := by
  have hlow := n.le_toInt
  have hhigh := n.toInt_lt
  show (if -2 ^ 63 ≤ n.toInt ∧ n.toInt < 2 ^ 63 then Except.ok (Int64.ofInt n.toInt) else _) = _
  rw [if_pos ⟨hlow, hhigh⟩, Int64.ofInt_toInt]

theorem document_ofFloat {x : Float} (h : x.isFinite = true) : (ofFloat x).document = .real x := by
  rw [ofFloat, if_pos h, document, if_pos h]

theorem asFloat_ofFloat {x : Float} (h : x.isFinite = true) :
    (ofFloat x).document.asFloat = .ok x := by
  rw [document_ofFloat h]
  rfl

/-! ## Lists and tables -/

theorem documents_eq_map (vs : List Json) : documents vs = vs.map document := by
  induction vs with
  | nil => rfl
  | cons v vs ih => rw [documents, ih, List.map_cons]

theorem fieldDocuments_eq_map (fs : List (String × Json)) :
    fieldDocuments fs = fs.map fun f => (some f.1, f.2.document) := by
  induction fs with
  | nil => rfl
  | cons f fs ih => rw [fieldDocuments, ih, List.map_cons]

/-- A list is read back if all its values are. -/
theorem asList_array {vs : List α} (h : ∀ v ∈ vs, read (json v).document = .ok v) :
    (array (vs.map json)).document.asList read = .ok vs := by
  rw [document, documents_eq_map, List.map_map]
  exact asList_map (fun v => (json v).document) h

/-- A table is read back if all its values are. -/
theorem asTable_ofTable {table : Table α}
    (h : ∀ e ∈ table.entries, read (json e.2).document = .ok e.2) :
    (ofTable json table).document.asTable read = .ok table := by
  rw [ofTable, document, fieldDocuments_eq_map, List.map_map]
  exact asTable_map (fun v => (json v).document) h

/-! ## Whole numbers of 64 bits -/

theorem fits_ofUInt64 (n : UInt64) : (ofUInt64 n).Fits := by
  have hlt := n.toNat_lt
  show -2 ^ 63 ≤ (n.toNat : ℤ) ∧ (n.toNat : ℤ) < 2 ^ 64
  omega

theorem fits_integer (n : Int64) : (integer n.toInt).Fits := by
  have hlow := n.le_toInt
  have hhigh := n.toInt_lt
  show -2 ^ 63 ≤ n.toInt ∧ n.toInt < 2 ^ 64
  omega

theorem fits_ofFloat (x : Float) : (ofFloat x).Fits := by
  unfold ofFloat
  split <;> trivial

theorem fits_array {vs : List α} (h : ∀ v ∈ vs, (json v).Fits) : (array (vs.map json)).Fits := by
  show ItemsFit (vs.map json)
  induction vs with
  | nil => trivial
  | cons v vs ih =>
    obtain ⟨hv, hvs⟩ := List.forall_mem_cons.mp h
    exact ⟨hv, ih hvs⟩

theorem fieldsFit_iff {fs : List (String × Json)} : FieldsFit fs ↔ ∀ f ∈ fs, f.2.Fits := by
  induction fs with
  | nil => simp [FieldsFit]
  | cons f fs ih => rw [FieldsFit, ih, List.forall_mem_cons]

theorem fits_ofTable {table : Table α} (h : ∀ e ∈ table.entries, (json e.2).Fits) :
    (ofTable json table).Fits := by
  refine fieldsFit_iff.mpr fun f hf => ?_
  obtain ⟨e, he, rfl⟩ := List.mem_map.mp hf
  exact h e he

/-! ## Values of documents -/

mutual

/-- Whole numbers of the value of a finite document are of 64 bits. -/
theorem fits_of_ofDocument? : (d : Document) → {depth : ℕ} → {v : Json} → d.IsFinite →
    ofDocument? depth d = some v → v.Fits
  | .null, _, _, _, h => by cases h; trivial
  | .flag _, _, _, _, h => by cases h; trivial
  | .integer _, _, _, hd, h => by cases h; exact hd
  | .real _, _, _, _, h => by cases h; trivial
  | .text _, _, _, _, h => by cases h; trivial
  | .list items, depth, v, hd, h => by
    rw [ofDocument?] at h
    split at h
    · cases h
    · obtain ⟨vs, hvs, rfl⟩ := Option.map_eq_some_iff.mp h
      exact fits_of_ofDocuments? items hd hvs
  | .record fields, depth, v, hd, h => by
    rw [ofDocument?] at h
    split at h
    · cases h
    · obtain ⟨fs, hfs, rfl⟩ := Option.map_eq_some_iff.mp h
      have hfields := fieldsFit_iff.mp (fits_of_ofFields? fields hd hfs)
      exact fieldsFit_iff.mpr fun f hf => hfields f (Table.mem_of_mem_ofList hf)

theorem fits_of_ofDocuments? : (ds : List Document) → {depth : ℕ} → {vs : List Json} →
    AllFinite ds → ofDocuments? depth ds = some vs → ItemsFit vs
  | [], _, _, _, h => by cases h; trivial
  | d :: ds, _, _, hds, h => by
    rw [ofDocuments?] at h
    obtain ⟨v, hv, h⟩ := Option.bind_eq_some_iff.mp h
    obtain ⟨vs, hvs, rfl⟩ := Option.map_eq_some_iff.mp h
    exact ⟨fits_of_ofDocument? d hds.1 hv, fits_of_ofDocuments? ds hds.2 hvs⟩

theorem fits_of_ofFields? : (fields : List (Option String × Document)) → {depth : ℕ} →
    {fs : List (String × Json)} → FieldsFinite fields → ofFields? depth fields = some fs →
    FieldsFit fs
  | [], _, _, _, h => by cases h; trivial
  | (none, _) :: _, _, _, _, h => by cases h
  | (some key, d) :: fields, _, _, hfields, h => by
    rw [ofFields?] at h
    obtain ⟨v, hv, h⟩ := Option.bind_eq_some_iff.mp h
    obtain ⟨fs, hfs, rfl⟩ := Option.map_eq_some_iff.mp h
    exact ⟨fits_of_ofDocument? d hfields.1 hv, fits_of_ofFields? fields hfields.2 hfs⟩

end

/-- Whole numbers of a value that is read as such are of 64 bits. -/
theorem fits_of_asJson {depth : ℕ} {d : Document} {v : Json} (hd : d.IsFinite)
    (h : asJson depth d = .ok v) : v.Fits := by
  unfold asJson at h
  split at h
  · rename_i w hw
    cases h
    exact fits_of_ofDocument? d hd hw
  · cases h

end Tariff.Json
