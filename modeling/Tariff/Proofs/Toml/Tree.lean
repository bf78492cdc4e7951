import Tariff.Proofs.Toml.Sections

/-!
# The tree of sections

Sections of distinct names with distinct keys make up a tree in which each name has what was written
under it, in the order in which it was written.

* `add?_table`, `foldlM_tables`: tables, one after another.
* `foldlM_items`: the tables of a list.
* `fieldsOf_tables`, `document_items`: the documents of both.
-/

namespace Tariff.Toml

variable {tree front entries : Entries} {name : String}

/-! ## Values under distinct keys -/

/-- The names in a tree. -/
def Entries.names (entries : Entries) : List String := entries.map (·.1)

/-- Of distinct names, one that comes later is new. -/
theorem new_of_nodup {names rest : List String} (h : (names ++ name :: rest).Nodup) :
    name ∉ names := by
  intro hmem
  exact (List.nodup_cons.mp (List.nodup_middle.mp h)).1 (List.mem_append_left rest hmem)

theorem lookup_eq_none (h : name ∉ entries.names) : Table.lookup name entries = none := by
  induction entries with
  | nil => rfl
  | cons e entries ih =>
    simp only [Entries.names, List.map_cons, List.mem_cons, not_or] at h
    simp [Table.lookup, h.1, ih h.2]

theorem lookup_append (node : Node) (h : name ∉ front.names) :
    Table.lookup name (front ++ [(name, node)]) = some node := by
  induction front with
  | nil => simp [Table.lookup]
  | cons e front ih =>
    simp only [Entries.names, List.map_cons, List.mem_cons, not_or] at h
    simp [Table.lookup, h.1, ih h.2]

theorem replace_append (old node : Node) (h : name ∉ front.names) :
    Entries.replace (front ++ [(name, old)]) name node = front ++ [(name, node)] := by
  have hfront : front.map (fun e => if e.1 = name then (name, node) else e) = front := by
    refine (List.map_congr_left fun e he => if_neg ?_).trans (List.map_id front)
    rintro rfl
    exact h (List.mem_map_of_mem he)
  simp [Entries.replace, hfront]

/-- The nodes of values. -/
def valueNodes (values : List (String × Value)) : Entries :=
  values.map fun e => (e.1, .value e.2.document)

/-- Values under distinct keys, none of them in use, are added at the end. -/
theorem foldlM_values (values : List (String × Value))
    (h : (entries.names ++ values.map (·.1)).Nodup) :
    values.foldlM (addField? []) entries = some (entries ++ valueNodes values) := by
  induction values generalizing entries with
  | nil => simp [valueNodes]
  | cons e values ih =>
    have hnew : e.1 ∉ entries.names := new_of_nodup h
    have hadd : addField? [] entries e = some (entries ++ [(e.1, .value e.2.document)]) := by
      show insertKey [e.1] (.value e.2.document) entries = _
      simp [insertKey, lookup_eq_none hnew]
    have hrest : (Entries.names (entries ++ [(e.1, .value e.2.document)]) ++
        values.map (·.1)).Nodup := by
      simpa [Entries.names] using h
    rw [List.foldlM_cons, hadd, Option.bind_eq_bind, Option.bind_some, ih hrest]
    simp [valueNodes]

/-! ## The table that is open -/

/-- A change in the last table of a tree. -/
theorem inside_table (origin : Origin) (inner : Entries) (change : Entries → Option Entries)
    (h : name ∉ front.names) :
    inside name change (front ++ [(name, .table origin inner)]) =
      (change inner).map fun inner => front ++ [(name, .table origin inner)] := by
  simp only [inside, lookup_append _ h, replace_append _ _ h]

theorem changeLast?_append {α : Type} (change : α → Option α) (items : List α) (a : α) :
    changeLast? change (items ++ [a]) = (change a).map fun a => items ++ [a] := by
  induction items with
  | nil => rfl
  | cons b items ih =>
    rw [List.cons_append, changeLast?, ih, Option.map_map]
    · rfl
    · simp

/-- A change in the last table of the list at the end of a tree. -/
theorem inside_tables (items : List Entries) (inner : Entries)
    (change : Entries → Option Entries) (h : name ∉ front.names) :
    inside name change (front ++ [(name, .tables (items ++ [inner]))]) =
      (change inner).map fun inner => front ++ [(name, .tables (items ++ [inner]))] := by
  simp only [inside, lookup_append _ h, replace_append _ _ h, changeLast?_append, Option.map_map]
  rfl

/-- Values are added where the last header leads, wherever that is. -/
theorem foldlM_within {place : Entries → Entries}
    (hplace : ∀ (inner : Entries) (change : Entries → Option Entries),
      inside name change (place inner) = (change inner).map place)
    (values : List (String × Value)) (h : (values.map (·.1)).Nodup) :
    values.foldlM (addField? [name]) (place []) = some (place (valueNodes values)) := by
  have hfold (inner : Entries) : values.foldlM (addField? [name]) (place inner) =
      (values.foldlM (addField? []) inner).map place := by
    clear h
    induction values generalizing inner with
    | nil => rfl
    | cons e values ih =>
      have hadd : addField? [name] (place inner) e = (addField? [] inner e).map place :=
        hplace inner _
      rw [List.foldlM_cons, List.foldlM_cons, hadd, Option.bind_eq_bind,
        Option.bind_map, Option.map_bind]
      congr 1
      funext inner
      exact ih inner
  rw [hfold, foldlM_values values (by simpa [Entries.names] using h)]
  simp

/-! ## Sections -/

/-- A table of a new name comes last. -/
theorem add?_table {values : List (String × Value)} (hname : name ∉ tree.names)
    (hkeys : (values.map (·.1)).Nodup) :
    Section.add? tree ⟨.table name, values⟩ =
      some (tree ++ [(name, .table .header (valueNodes values))]) := by
  have hopen : openTable [name] tree = some (tree ++ [(name, .table .header [])]) := by
    simp [openTable, within, openUnder, lookup_eq_none hname]
  show (openTable [name] tree).bind (values.foldlM (addField? [name])) = _
  rw [hopen, Option.bind_some]
  exact foldlM_within (fun inner change => inside_table .header inner change hname) values hkeys

/-- The first table of a list comes last. -/
theorem add?_firstItem {values : List (String × Value)} (hname : name ∉ tree.names)
    (hkeys : (values.map (·.1)).Nodup) :
    Section.add? tree ⟨.item name, values⟩ =
      some (tree ++ [(name, .tables [valueNodes values])]) := by
  have hopen : openItem [name] tree = some (tree ++ [(name, .tables [[]])]) := by
    simp [openItem, within, openItemUnder, lookup_eq_none hname]
  show (openItem [name] tree).bind (values.foldlM (addField? [name])) = _
  rw [hopen, Option.bind_some]
  exact foldlM_within (fun inner change => inside_tables [] inner change hname) values hkeys

/-- One more table of a list is its last. -/
theorem add?_nextItem {values : List (String × Value)} (items : List Entries)
    (hname : name ∉ front.names) (hkeys : (values.map (·.1)).Nodup) :
    Section.add? (front ++ [(name, .tables items)]) ⟨.item name, values⟩ =
      some (front ++ [(name, .tables (items ++ [valueNodes values]))]) := by
  have hopen : openItem [name] (front ++ [(name, .tables items)]) =
      some (front ++ [(name, .tables (items ++ [[]]))]) := by
    simp [openItem, within, openItemUnder, lookup_append _ hname, replace_append _ _ hname]
  show (openItem [name] _).bind (values.foldlM (addField? [name])) = _
  rw [hopen, Option.bind_some]
  exact foldlM_within (fun inner change => inside_tables items inner change hname) values hkeys

/-- Tables of distinct names, none of them in use, come last, one after another. -/
theorem foldlM_tables (tree : Entries) (parts : List (String × List (String × Value)))
    (hnames : (tree.names ++ parts.map (·.1)).Nodup)
    (hkeys : ∀ part ∈ parts, (part.2.map (·.1)).Nodup) :
    (parts.map fun part => (⟨.table part.1, part.2⟩ : Section)).foldlM Section.add? tree =
      some (tree ++ parts.map fun part => (part.1, .table .header (valueNodes part.2))) := by
  induction parts generalizing tree with
  | nil => simp
  | cons part parts ih =>
    obtain ⟨hpart, hkeys⟩ := List.forall_mem_cons.mp hkeys
    have hnew : part.1 ∉ tree.names := new_of_nodup hnames
    rw [List.map_cons, List.foldlM_cons, add?_table hnew hpart, Option.bind_eq_bind,
      Option.bind_some, ih _ (by simpa [Entries.names] using hnames) hkeys]
    simp

/-- The tables of a list are in it, one after another. -/
theorem foldlM_items (tree : Entries) (parts : List (List (String × Value))) (hne : parts ≠ [])
    (hname : name ∉ tree.names) (hkeys : ∀ part ∈ parts, (part.map (·.1)).Nodup) :
    (parts.map fun part => (⟨.item name, part⟩ : Section)).foldlM Section.add? tree =
      some (tree ++ [(name, .tables (parts.map valueNodes))]) := by
  have hnext (items : List Entries) (parts : List (List (String × Value)))
      (hkeys : ∀ part ∈ parts, (part.map (·.1)).Nodup) :
      (parts.map fun part => (⟨.item name, part⟩ : Section)).foldlM Section.add?
          (tree ++ [(name, .tables items)]) =
        some (tree ++ [(name, .tables (items ++ parts.map valueNodes))]) := by
    induction parts generalizing items with
    | nil => simp
    | cons part parts ih =>
      obtain ⟨hpart, hkeys⟩ := List.forall_mem_cons.mp hkeys
      rw [List.map_cons, List.foldlM_cons, add?_nextItem items hname hpart, Option.bind_eq_bind,
        Option.bind_some, ih _ hkeys]
      simp
  cases parts with
  | nil => exact absurd rfl hne
  | cons part parts =>
    obtain ⟨hpart, hkeys⟩ := List.forall_mem_cons.mp hkeys
    rw [List.map_cons, List.foldlM_cons, add?_firstItem hname hpart, Option.bind_eq_bind,
      Option.bind_some, hnext _ _ hkeys]
    simp

/-! ## Documents -/

/-- What the values of a section are read as. -/
def fieldsOfValues (values : List (String × Value)) : List (Option String × Document) :=
  values.map fun e => (some e.1, e.2.document)

theorem fieldsOf_eq_map (entries : Entries) :
    fieldsOf entries = entries.map fun e => (some e.1, e.2.document) := by
  induction entries with
  | nil => rfl
  | cons e entries ih => rw [fieldsOf, ih, List.map_cons]

theorem recordsOf_eq_map (items : List Entries) :
    recordsOf items = items.map fun entries => .record (fieldsOf entries) := by
  induction items with
  | nil => rfl
  | cons entries items ih => rw [recordsOf, ih, List.map_cons]

theorem fieldsOf_valueNodes (values : List (String × Value)) :
    fieldsOf (valueNodes values) = fieldsOfValues values := by
  simp [fieldsOf_eq_map, valueNodes, fieldsOfValues, Node.document]

theorem fieldsOf_append (first rest : Entries) :
    fieldsOf (first ++ rest) = fieldsOf first ++ fieldsOf rest := by
  simp [fieldsOf_eq_map]

theorem fieldsOf_tables (parts : List (String × List (String × Value))) :
    fieldsOf (parts.map fun part => (part.1, .table .header (valueNodes part.2))) =
      parts.map fun part => (some part.1, .record (fieldsOfValues part.2)) := by
  rw [fieldsOf_eq_map, List.map_map]
  refine List.map_congr_left fun part _ => ?_
  simp [Node.document, fieldsOf_valueNodes]

theorem document_items (parts : List (List (String × Value))) :
    (Node.tables (parts.map valueNodes)).document =
      .list (parts.map fun values => .record (fieldsOfValues values)) := by
  rw [Node.document, recordsOf_eq_map, List.map_map]
  congr 1
  refine List.map_congr_left fun values _ => ?_
  simp [fieldsOf_valueNodes]

end Tariff.Toml
