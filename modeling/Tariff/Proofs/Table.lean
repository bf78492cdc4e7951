import Mathlib.Data.List.Perm.Basic
import Tariff.Table

/-!
# Tables as sets of entries

* `mem_entries_iff`: the entries are what look-up finds. `ext_get?`: so look-up tells tables apart.
* `ofList_entries`: a table is made up of its own entries.
* `mem_of_mem_ofList`: the table of a list has no entries but those of the list.
-/

namespace Tariff
namespace Table

variable {α : Type}

theorem lookup_eq_some_iff {entries : List (String × α)} {name : String} {value : α}
    (h : entries.Pairwise fun a b => a.1 < b.1) :
    lookup name entries = some value ↔ (name, value) ∈ entries := by
  induction entries with
  | nil => simp [lookup]
  | cons e rest ih =>
    obtain ⟨key, old⟩ := e
    have hrest := (List.pairwise_cons.mp h).1
    have ih := ih h.of_cons
    unfold lookup
    by_cases hk : name = key
    · -- The name of the first entry is no name of a later one.
      subst hk
      have hno : (name, value) ∉ rest := fun hm => String.lt_irrefl name (hrest _ hm)
      simp only [if_true, Option.some.injEq, List.mem_cons, Prod.mk.injEq, true_and, hno, or_false]
      exact eq_comm
    · simp [hk, ih]

/-- The entries of a table are the pairs of a name and the value under it. -/
theorem mem_entries_iff {table : Table α} {name : String} {value : α} :
    (name, value) ∈ table.entries ↔ table.get? name = some value :=
  (lookup_eq_some_iff table.ascending).symm

theorem ext {a b : Table α} (h : a.entries = b.entries) : a = b := by
  cases a; cases b; cases h; rfl

theorem nodup_entries (table : Table α) : table.entries.Nodup := by
  refine table.ascending.imp ?_
  rintro e _ hlt rfl
  exact String.lt_irrefl _ hlt

/-- Tables in which the same is found under every name are the same. -/
theorem ext_get? {a b : Table α} (h : ∀ name, a.get? name = b.get? name) : a = b := by
  have hmem : ∀ e, e ∈ a.entries ↔ e ∈ b.entries := by
    rintro ⟨name, value⟩
    rw [mem_entries_iff, mem_entries_iff, h]
  have hperm : a.entries.Perm b.entries :=
    (List.perm_ext_iff_of_nodup a.nodup_entries b.nodup_entries).mpr hmem
  refine ext (hperm.eq_of_pairwise (fun e e' _ _ hlt hgt => ?_) a.ascending b.ascending)
  exact absurd hgt (String.lt_asymm hlt)

/-! ## Tables from lists -/

theorem place_append {name : String} {value : α} {entries : List (String × α)}
    (h : ∀ e ∈ entries, e.1 < name) : place name value entries = entries ++ [(name, value)] := by
  induction entries with
  | nil => rfl
  | cons e rest ih =>
    have he := h e List.mem_cons_self
    have hlt : ¬ name < e.1 := fun hn => String.lt_irrefl name (String.lt_trans hn he)
    have hne : name ≠ e.1 := fun hn => String.lt_irrefl name (hn ▸ he)
    simp only [place, if_neg hlt, if_neg hne, List.cons_append]
    rw [ih fun e' he' => h e' (List.mem_cons_of_mem _ he')]

theorem foldl_insert_entries (table : Table α) {rest : List (String × α)}
    (h : (table.entries ++ rest).Pairwise fun a b => a.1 < b.1) :
    (rest.foldl (fun table e => table.insert e.1 e.2) table).entries = table.entries ++ rest := by
  induction rest generalizing table with
  | nil => simp
  | cons e rest ih =>
    have hlast : (table.insert e.1 e.2).entries = table.entries ++ [e] :=
      place_append fun e' he' => (List.pairwise_append.mp h).2.2 e' he' e List.mem_cons_self
    rw [List.foldl_cons, ih, hlast, List.append_assoc, List.singleton_append]
    rwa [hlast, List.append_assoc, List.singleton_append]

/-- The entries of a table, taken one by one, make it up again. -/
theorem ofList_entries (table : Table α) : ofList table.entries = table :=
  ext (foldl_insert_entries empty table.ascending)

theorem insert_single (name : String) (old value : α) :
    (single name old).insert name value = single name value := by
  refine ext ?_
  show place name value [(name, old)] = [(name, value)]
  rw [place, if_neg (String.lt_irrefl name), if_pos rfl]

theorem mem_foldl_insert (table : Table α) {entries : List (String × α)} {e : String × α}
    (h : e ∈ (entries.foldl (fun table e => table.insert e.1 e.2) table).entries) :
    e ∈ table.entries ∨ e ∈ entries := by
  induction entries generalizing table with
  | nil => exact .inl h
  | cons e' rest ih =>
    rcases ih _ h with hfirst | hrest
    · rcases mem_place hfirst with rfl | hold
      · exact .inr List.mem_cons_self
      · exact .inl hold
    · exact .inr (List.mem_cons_of_mem e' hrest)

/-- The table of a list has no entries but those of the list. -/
theorem mem_of_mem_ofList {entries : List (String × α)} {e : String × α}
    (h : e ∈ (ofList entries).entries) : e ∈ entries := by
  rcases mem_foldl_insert empty h with hempty | hmem
  · cases hempty
  · exact hmem

end Table
end Tariff
