import Mathlib.Data.List.Nodup
import Tariff.Document.Record
import Tariff.Proofs.Float.Numeral
import Tariff.Proofs.Results
import Tariff.Proofs.Table

/-!
# What documents are read as

* `readRecord_named`: a record that has its values under keys, in the order of the fields, is read
  as the list of the values.
* `asList_map`, `asTable_map`: lists and tables are read if all that is in them is.
* `Document.IsFinite`: floats of the document are numbers, and its whole numbers are of 64 bits.
* `Field.Keeps`: what a field reads from such a document, or from one of another hereditary kind,
  keeps a property of the record. `keeps_readRecord`: then so does the record as a whole.
* `exists_of_asList`, `exists_of_asTable`: all values of a list or table are read from somewhere.
-/

namespace Tariff

open Number

variable {α β : Type}

/-! ## Records by key and by order -/

/-- Values under the names of the fields, in their order. -/
def named (fields : List (Field α)) (ds : List Document) : List (Option String × Document) :=
  List.zipWith (fun field d => (some field.name, d)) fields ds

/-- Whether all required fields are among the ones met. -/
def complete (fields : List (Field α)) (seen : List String) : Bool :=
  fields.all fun field => !field.required || seen.contains field.name

theorem complete_names (first rest : List (Field α))
    (hnames : ((first ++ rest).map (·.name)).Nodup) :
    complete (first ++ rest) (first.map (·.name)).reverse = !rest.any (·.required) := by
  have hfirst : complete first (first.map (·.name)).reverse = true := by
    unfold complete
    rw [List.all_eq_true]
    intro field hfield
    rw [List.contains_iff_mem.mpr (List.mem_reverse.mpr (List.mem_map_of_mem hfield)), Bool.or_true]
  have hrest : complete rest (first.map (·.name)).reverse =
      rest.all fun field => !field.required := by
    unfold complete
    rw [Bool.eq_iff_iff, List.all_eq_true, List.all_eq_true]
    refine forall₂_congr fun field hfield => ?_
    have hnot : field.name ∉ (first.map (·.name)).reverse := by
      intro hmem
      rw [List.map_append] at hnames
      exact List.disjoint_of_nodup_append hnames (List.mem_reverse.mp hmem)
        (List.mem_map_of_mem hfield)
    rw [Bool.eq_false_iff.mpr fun h => hnot (List.contains_iff_mem.mp h), Bool.or_false]
  unfold complete at hfirst hrest ⊢
  rw [List.all_append, hfirst, hrest, Bool.true_and, List.not_any_eq_all_not]

theorem find?_name (first rest : List (Field α)) (field : Field α)
    (hnames : ((first ++ field :: rest).map (·.name)).Nodup) :
    (first ++ field :: rest).find? (·.name == field.name) = some field := by
  have hfirst : first.find? (·.name == field.name) = none := by
    rw [List.find?_eq_none]
    intro other hother heq
    rw [List.map_append, List.map_cons] at hnames
    have hmem : field.name ∈ first.map (·.name) := eq_of_beq heq ▸ List.mem_map_of_mem hother
    exact List.disjoint_of_nodup_append hnames hmem List.mem_cons_self
  rw [List.find?_append, hfirst, Option.none_or]
  exact List.find?_cons_of_pos (beq_self_eq_true field.name)

theorem readValues_nil (format : DataFormat) (fields : List (Field α)) (record : α) :
    readValues format fields [] record =
      if fields.any (·.required) then .error .malformed else .ok record := by
  cases fields with
  | nil => rfl
  | cons field rest =>
    rw [readValues]
    exact List.cons_ne_nil field rest

theorem readFields_named (rest : List (Field α)) :
    ∀ (first : List (Field α)) (ds : List Document) (record : α),
      ((first ++ rest).map (·.name)).Nodup → ds.length ≤ rest.length →
      ((readFields (first ++ rest) (named rest ds) (first.map (·.name)).reverse record).bind
        fun p => if complete (first ++ rest) p.2 then .ok p.1 else .error .malformed) =
      readValues .json rest ds record := by
  induction rest with
  | nil =>
    intro first ds record hnames hlength
    obtain rfl : ds = [] := List.length_eq_zero_iff.mp (Nat.le_zero.mp hlength)
    show (if complete (first ++ []) (first.map (·.name)).reverse then _ else _) = _
    rw [complete_names first [] hnames]
    rfl
  | cons field rest ih =>
    intro first ds record hnames hlength
    cases ds with
    | nil =>
      show (if complete (first ++ field :: rest) (first.map (·.name)).reverse then _ else _) = _
      rw [complete_names first (field :: rest) hnames, readValues_nil]
      cases (field :: rest).any (·.required) <;> rfl
    | cons d ds =>
      have hnew : (first.map (·.name)).reverse.contains field.name = false := by
        refine Bool.eq_false_iff.mpr fun h => ?_
        rw [List.map_append, List.map_cons] at hnames
        exact List.disjoint_of_nodup_append hnames
          (List.mem_reverse.mp (List.contains_iff_mem.mp h)) List.mem_cons_self
      have hmoved : first ++ field :: rest = (first ++ [field]) ++ rest := by
        rw [List.append_assoc, List.singleton_append]
      have hseen : ((first ++ [field]).map (·.name)).reverse =
          field.name :: (first.map (·.name)).reverse := by
        rw [List.map_append, List.reverse_append]
        rfl
      have hih := ih (first ++ [field]) ds
      rw [← hmoved, hseen] at hih
      rw [named, List.zipWith_cons_cons, readFields, find?_name first rest field hnames, readValues]
      simp only [hnew, Bool.false_eq_true, if_false]
      cases hread : field.read d record with
      | error fault => rfl
      | ok next => exact hih next hnames (Nat.le_of_succ_le_succ hlength)

/-- A record that has its values under keys, in the order of the fields, is read as the list of the
values. -/
theorem readRecord_named {format : DataFormat} {fields : List (Field α)} {ds : List Document}
    (start : α) (hnames : (fields.map (·.name)).Nodup) (hlength : ds.length ≤ fields.length) :
    readRecord format fields start (.record (named fields ds)) =
      readValues .json fields ds start :=
  readFields_named fields [] ds start hnames hlength

theorem Field.read_of {name : String} {read : Document → Read β} {set : β → α → α} {d : Document}
    {v : β} (record : α) (h : read d = .ok v) :
    (Field.of name read set).read d record = .ok (set v record) :=
  congrArg (Except.map (set · record)) h

/-- A value that is read goes to its field, and the others follow. -/
theorem readValues_of_read {format : DataFormat} {field : Field α} {fields : List (Field α)}
    {d : Document} {ds : List Document} {record next last : α}
    (hread : field.read d record = .ok next)
    (hrest : readValues format fields ds next = .ok last) :
    readValues format (field :: fields) (d :: ds) record = .ok last := by
  rw [readValues, hread]
  exact hrest

theorem readValues_of_cons {format : DataFormat} {name : String} {read : Document → Read β}
    {set : β → α → α} {fields : List (Field α)} {d : Document} {ds : List Document} {v : β}
    {record next : α} (hread : read d = .ok v)
    (hrest : readValues format fields ds (set v record) = .ok next) :
    readValues format (Field.of name read set :: fields) (d :: ds) record = .ok next :=
  readValues_of_read (Field.read_of record hread) hrest

/-- A field under a key that comes first is read first. -/
theorem readFields_of_cons {fields : List (Field α)} {field : Field α} {key : String} {d : Document}
    {rest : List (Option String × Document)} {seen seen' : List String} {record next last : α}
    (hfield : fields.find? (·.name == key) = some field) (hseen : seen.contains key = false)
    (hread : field.read d record = .ok next)
    (hrest : readFields fields rest (key :: seen) next = .ok (last, seen')) :
    readFields fields ((some key, d) :: rest) seen record = .ok (last, seen') := by
  rw [readFields, hfield]
  simp only [hseen, hread, Bool.false_eq_true, if_false]
  exact hrest

/-! ## Values that are read -/

namespace Document

theorem asUInt64_integer (n : UInt64) : (integer n.toNat).asUInt64 = .ok n := by
  have hlt : n.toNat < 2 ^ (64 : ℕ) := n.toNat_lt
  show Except.map UInt64.ofNat (if n.toNat < 2 ^ (64 : ℕ) then .ok n.toNat
    else .error Fault.malformed) = _
  rw [if_pos hlt]
  show Except.ok (UInt64.ofNat n.toNat) = _
  rw [UInt64.ofNat_toNat]

/-- A list is read if all its documents are. -/
theorem asList_map {read : Document → Read α} (document : α → Document) {vs : List α}
    (h : ∀ v ∈ vs, read (document v) = .ok v) :
    (list (vs.map document)).asList read = .ok vs := by
  show (vs.map document).mapM read = .ok vs
  rw [mapM_eq_ok_iff, List.forall₂_map_left_iff, List.forall₂_same]
  exact h

/-- A table is read if the documents of all its entries are. -/
theorem asTable_map {read : Document → Read α} (document : α → Document) {table : Table α}
    (h : ∀ e ∈ table.entries, read (document e.2) = .ok e.2) :
    (record (table.entries.map fun e => (some e.1, document e.2))).asTable read = .ok table := by
  have hentries : (table.entries.map fun e => (some e.1, document e.2)).mapM (asEntry read) =
      .ok table.entries := by
    rw [mapM_eq_ok_iff, List.forall₂_map_left_iff, List.forall₂_same]
    intro e he
    exact map_eq_ok_iff.mpr ⟨e.2, h e he, rfl⟩
  exact map_eq_ok_iff.mpr ⟨table.entries, hentries, table.ofList_entries⟩

end Document

/-! ## Documents of a text -/

namespace Document

mutual

/-- Floats of the document are numbers, and its whole numbers are of 64 bits. -/
def IsFinite : Document → Prop
  | integer n => -2 ^ 63 ≤ n ∧ n < 2 ^ 64
  | real x => x.isFinite = true
  | list items => AllFinite items
  | record fields => FieldsFinite fields
  | _ => True

/-- Numbers of all documents are as in `IsFinite`. -/
def AllFinite : List Document → Prop
  | [] => True
  | d :: ds => d.IsFinite ∧ AllFinite ds

/-- Numbers of all fields are as in `IsFinite`. -/
def FieldsFinite : List (Option String × Document) → Prop
  | [] => True
  | (_, d) :: ds => d.IsFinite ∧ FieldsFinite ds

end

theorem allFinite_iff {ds : List Document} : AllFinite ds ↔ ∀ d ∈ ds, d.IsFinite := by
  induction ds with
  | nil => simp [AllFinite]
  | cons d ds ih => rw [AllFinite, ih, List.forall_mem_cons]

theorem fieldsFinite_iff {fields : List (Option String × Document)} :
    FieldsFinite fields ↔ ∀ e ∈ fields, e.2.IsFinite := by
  induction fields with
  | nil => simp [FieldsFinite]
  | cons e fields ih => rw [FieldsFinite, ih, List.forall_mem_cons]

/-- The parts of a list or a record have the property if the whole has it. -/
structure Hereditary (Q : Document → Prop) : Prop where
  list : ∀ {items : List Document}, Q (.list items) → ∀ d ∈ items, Q d
  record : ∀ {fields : List (Option String × Document)}, Q (.record fields) → ∀ e ∈ fields, Q e.2

theorem hereditary_isFinite : Hereditary IsFinite :=
  ⟨fun h => allFinite_iff.mp h, fun h => fieldsFinite_iff.mp h⟩

/-- The float of a whole number of 64 bits is a number. -/
theorem isFinite_floatOfInt {n : ℤ} (hlow : -2 ^ 63 ≤ n) (hhigh : n < 2 ^ 64) :
    (floatOfInt n).isFinite = true := by
  refine isFinite_toFloat ?_
  have hbound : n.natAbs ≤ 2 ^ 64 := by omega
  have hcast : (n.natAbs : ℚ) ≤ 2 ^ 64 := by exact_mod_cast hbound
  unfold Numeral.abs
  rw [zpow_zero, mul_one]
  refine hcast.trans_lt ?_
  calc (2 : ℚ) ^ 64 = 2 ^ (64 : ℤ) := by norm_cast
    _ < 2 ^ (1023 : ℤ) := zpow_lt_zpow_right₀ (by norm_num) (by norm_num)

/-- What is read as a float is a number. -/
theorem isFinite_of_asFloat {d : Document} {x : Float} (h : d.IsFinite) (hx : d.asFloat = .ok x) :
    x.isFinite = true := by
  cases d with
  | integer n =>
    cases hx
    exact isFinite_floatOfInt h.1 h.2
  | real y =>
    cases hx
    exact h
  | _ => cases hx

theorem asOptional_cases {read : Document → Read β} {d : Document} {o : Option β}
    (h : d.asOptional read = .ok o) : o = none ∨ ∃ x, read d = .ok x ∧ o = some x := by
  unfold asOptional at h
  split at h
  · cases h
    exact .inl rfl
  · obtain ⟨x, hx, rfl⟩ := map_eq_ok_iff.mp h
    exact .inr ⟨x, hx, rfl⟩

theorem exists_of_asList {Q : Document → Prop} (hQ : Hereditary Q) {read : Document → Read β}
    {d : Document} {vs : List β} (h : Q d) (hvs : d.asList read = .ok vs) :
    ∀ v ∈ vs, ∃ e : Document, Q e ∧ read e = .ok v := by
  cases d with
  | list items =>
    intro v hv
    obtain ⟨e, he, hread⟩ := exists_of_mapM hvs hv
    exact ⟨e, hQ.list h e he, hread⟩
  | _ => cases hvs

theorem exists_of_asTable {Q : Document → Prop} (hQ : Hereditary Q) {read : Document → Read β}
    {d : Document} {table : Table β} (h : Q d) (htable : d.asTable read = .ok table) :
    ∀ e ∈ table.entries, ∃ e' : Document, Q e' ∧ read e' = .ok e.2 := by
  cases d with
  | record fields =>
    obtain ⟨entries, hentries, rfl⟩ := map_eq_ok_iff.mp htable
    intro e he
    obtain ⟨⟨key, e'⟩, hmem, hread⟩ := exists_of_mapM hentries (Table.mem_of_mem_ofList he)
    refine ⟨e', hQ.record h _ hmem, ?_⟩
    cases key with
    | none => cases hread
    | some key =>
      obtain ⟨value, hvalue, rfl⟩ := map_eq_ok_iff.mp hread
      exact hvalue
  | _ => cases htable

end Document

/-! ## What every field keeps -/

variable {Q : Document → Prop} {P : α → Prop}

/-- Whatever the field reads from a document with the property `Q`, the record keeps `P`. -/
def Field.Keeps (Q : Document → Prop) (P : α → Prop) (field : Field α) : Prop :=
  ∀ d record next, Q d → P record → field.read d record = .ok next → P next

theorem Field.keeps_of {name : String} {read : Document → Read β} {set : β → α → α}
    (h : ∀ d v record, Q d → read d = .ok v → P record → P (set v record)) :
    (Field.of name read set).Keeps Q P := by
  intro d record next hd hrecord hnext
  obtain ⟨v, hread, rfl⟩ := map_eq_ok_iff.mp hnext
  exact h d v record hd hread hrecord

theorem keeps_readFields {fields : List (Field α)}
    (hfields : ∀ field ∈ fields, field.Keeps Q P) {entries : List (Option String × Document)}
    (hentries : ∀ e ∈ entries, Q e.2) {seen seen' : List String} {record next : α}
    (hrecord : P record) (h : readFields fields entries seen record = .ok (next, seen')) :
    P next := by
  induction entries generalizing seen record with
  | nil =>
    cases h
    exact hrecord
  | cons e entries ih =>
    obtain ⟨key, d⟩ := e
    obtain ⟨hd, hrest⟩ := List.forall_mem_cons.mp hentries
    cases key with
    | none => cases h
    | some key =>
      rw [readFields] at h
      split at h
      · -- An unknown field is skipped.
        split at h
        · exact ih hrest hrecord h
        · cases h
      · rename_i field hfind
        split at h
        · cases h
        · obtain ⟨between, hread, h⟩ := bind_eq_ok_iff.mp h
          exact ih hrest
            (hfields field (List.mem_of_find?_eq_some hfind) d record between hd hrecord hread) h

theorem keeps_readValues {format : DataFormat} {fields : List (Field α)}
    (hfields : ∀ field ∈ fields, field.Keeps Q P) {ds : List Document}
    (hds : ∀ d ∈ ds, Q d) {record next : α} (hrecord : P record)
    (h : readValues format fields ds record = .ok next) : P next := by
  induction ds generalizing fields record with
  | nil =>
    rw [readValues_nil] at h
    split at h
    · cases h
    · cases h
      exact hrecord
  | cons d ds ih =>
    obtain ⟨hd, hds⟩ := List.forall_mem_cons.mp hds
    cases fields with
    | nil =>
      rw [readValues] at h
      split at h
      · cases h
        exact hrecord
      · cases h
    | cons field fields =>
      obtain ⟨hfield, hfields⟩ := List.forall_mem_cons.mp hfields
      rw [readValues] at h
      obtain ⟨between, hread, h⟩ := bind_eq_ok_iff.mp h
      exact ih hfields hds (hfield d record between hd hrecord hread) h

/-- What every field keeps, reading a record keeps. -/
theorem keeps_readRecord (hQ : Document.Hereditary Q) {format : DataFormat}
    {fields : List (Field α)} (hfields : ∀ field ∈ fields, field.Keeps Q P) {start next : α}
    (hstart : P start) {d : Document} (hd : Q d)
    (h : readRecord format fields start d = .ok next) : P next := by
  cases d with
  | record entries =>
    obtain ⟨⟨record, seen⟩, hread, h⟩ := bind_eq_ok_iff.mp h
    have hkeeps := keeps_readFields hfields (hQ.record hd) hstart hread
    -- Whether all required fields are there changes nothing in the record.
    dsimp only at h
    split at h
    · cases h
      exact hkeeps
    · cases h
  | list items => exact keeps_readValues hfields (hQ.list hd) hstart h
  | _ => cases h

end Tariff
