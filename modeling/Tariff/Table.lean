/-!
# Tables ordered by name

A table gives each of its names one value, and lists them by ascending name (by code point). The
order is part of the type, so two tables with the same values are equal.

* `get?_insert`, `get?_erase`: what each operation does to look-up.
-/

namespace Tariff

/-- Values under distinct names, in ascending order of name. -/
structure Table (α : Type) where
  /-- The names with their values. -/
  entries : List (String × α)
  /-- The names ascend strictly. -/
  ascending : entries.Pairwise fun a b => a.1 < b.1

namespace Table

variable {α β : Type}

instance [DecidableEq α] : DecidableEq (Table α) := fun a b =>
  decidable_of_iff (a.entries = b.entries)
    ⟨fun h => by cases a; cases b; cases h; rfl, fun h => h ▸ rfl⟩

/-- The table without names. -/
def empty : Table α := ⟨[], .nil⟩

/-- The table with one name. -/
def single (name : String) (value : α) : Table α := ⟨[(name, value)], by simp⟩

/-- Looks a name up in a list of entries. -/
def lookup (name : String) : List (String × α) → Option α
  | [] => none
  | (key, value) :: rest => if name = key then some value else lookup name rest

/-- The value under a name. -/
def get? (table : Table α) (name : String) : Option α :=
  lookup name table.entries

/-- Whether the table has a name. -/
def contains (table : Table α) (name : String) : Bool :=
  (table.get? name).isSome

/-- The names in order. -/
def names (table : Table α) : List String :=
  table.entries.map (·.1)

/-- The count of names. -/
def size (table : Table α) : Nat :=
  table.entries.length

/-- Puts an entry at its place in an ascending list, in place of one of the same name. -/
def place (name : String) (value : α) : List (String × α) → List (String × α)
  | [] => [(name, value)]
  | (key, old) :: rest =>
    if name < key then (name, value) :: (key, old) :: rest
    else if name = key then (name, value) :: rest
    else (key, old) :: place name value rest

theorem mem_place {name : String} {value : α} {entries : List (String × α)} {e : String × α}
    (h : e ∈ place name value entries) : e = (name, value) ∨ e ∈ entries := by
  fun_induction place name value entries <;> grind

theorem pairwise_place (name : String) (value : α) {entries : List (String × α)}
    (h : entries.Pairwise fun a b => a.1 < b.1) :
    (place name value entries).Pairwise fun a b => a.1 < b.1 := by
  fun_induction place name value entries with
  | case1 => simp
  | case2 key old rest lt =>
    refine .cons (fun e he => ?_) h
    rcases List.mem_cons.mp he with rfl | he
    · exact lt
    · exact String.lt_trans lt (List.rel_of_pairwise_cons h he)
  | case3 old rest =>
    exact .cons (fun e he => List.rel_of_pairwise_cons h he) (List.Pairwise.of_cons h)
  | case4 key old rest not_lt ne ih =>
    refine .cons (fun e he => ?_) (ih (List.Pairwise.of_cons h))
    rcases mem_place he with rfl | he
    · grind
    · exact List.rel_of_pairwise_cons h he

/-- Gives a name a value. -/
def insert (table : Table α) (name : String) (value : α) : Table α :=
  ⟨place name value table.entries, pairwise_place name value table.ascending⟩

/-- Takes a name out. -/
def erase (table : Table α) (name : String) : Table α :=
  ⟨table.entries.filter (·.1 ≠ name), table.ascending.filter _⟩

/-- The table of a list of entries; of entries with one name the last counts. -/
def ofList (entries : List (String × α)) : Table α :=
  entries.foldl (fun table e => table.insert e.1 e.2) empty

/-! ## Look-up after each operation -/

@[simp] theorem get?_empty (name : String) : (empty : Table α).get? name = none := rfl

theorem lookup_place (name : String) (value : α) (entries : List (String × α)) (other : String) :
    lookup other (place name value entries) =
      if other = name then some value else lookup other entries := by
  fun_induction place name value entries <;> grind [lookup]

theorem get?_insert (table : Table α) (name : String) (value : α) (other : String) :
    (table.insert name value).get? other = if other = name then some value else table.get? other :=
  lookup_place name value table.entries other

theorem lookup_filter_ne (name : String) (entries : List (String × α)) (other : String) :
    lookup other (entries.filter (·.1 ≠ name)) =
      if other = name then none else lookup other entries := by
  induction entries with
  | nil => simp [lookup]
  | cons e rest ih => grind [lookup]

theorem get?_erase (table : Table α) (name other : String) :
    (table.erase name).get? other = if other = name then none else table.get? other :=
  lookup_filter_ne name table.entries other

end Table

end Tariff
