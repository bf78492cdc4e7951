import Tariff.Proofs.Document
import Tariff.Proofs.Toml.Tree

/-!
# Whole numbers of a text

A text may spell whole numbers beyond 64 bits. They do not get into its document.

* `Document.Bounded`: whole numbers of a document are of 64 bits, one of them for the sign.
* `Preserves`: a change of a tree that keeps it bounded, as all that the reader makes are.
* `Reader.bounded_step`: one token keeps what is read bounded.
* `exists_of_decode`: whatever is read from a text is read from a bounded document.
-/

namespace Tariff

/-- Whole numbers of the document are of 64 bits, one of them for the sign. -/
inductive Document.Bounded : Document → Prop
  | null : Bounded .null
  | flag (value : Bool) : Bounded (.flag value)
  | integer {n : ℤ} (hlow : -2 ^ 63 ≤ n) (hhigh : n < 2 ^ 63) : Bounded (.integer n)
  | real (x : Float) : Bounded (.real x)
  | text (s : String) : Bounded (.text s)
  | list {items : List Document} (h : ∀ d ∈ items, Bounded d) : Bounded (.list items)
  | record {fields : List (Option String × Document)} (h : ∀ e ∈ fields, Bounded e.2) :
      Bounded (.record fields)
  | unusable : Bounded .unusable
  | broken : Bounded .broken

theorem Document.hereditary_bounded : Document.Hereditary Document.Bounded := by
  refine ⟨fun h => ?list, fun h => ?record⟩
  case list =>
    cases h with
    | list h => exact h
  case record =>
    cases h with
    | record h => exact h

namespace Toml

open Text

/-! ## Words -/

theorem inRange?_eq_some {n m : ℤ} (h : inRange? n = some m) : -2 ^ 63 ≤ m ∧ m < 2 ^ 63 := by
  unfold inRange? at h
  split at h
  · cases h
    assumption
  · cases h

theorem basedWord?_eq_some {base : ℕ} {cs : List Char} {n : ℤ} (h : basedWord? base cs = some n) :
    -2 ^ 63 ≤ n ∧ n < 2 ^ 63 := by
  obtain ⟨digits, -, h⟩ := Option.bind_eq_some_iff.mp h
  obtain ⟨m, -, h⟩ := Option.bind_eq_some_iff.mp h
  exact inRange?_eq_some h

theorem integerWord?_eq_some {cs : List Char} {n : ℤ} (h : integerWord? cs = some n) :
    -2 ^ 63 ≤ n ∧ n < 2 ^ 63 := by
  unfold integerWord? at h
  split at h
  case h_4 =>
    obtain ⟨digits, -, h⟩ := Option.bind_eq_some_iff.mp h
    exact inRange?_eq_some h
  all_goals exact basedWord?_eq_some h

theorem bounded_wordValue? {cs : List Char} {d : Document} (h : wordValue? cs = some d) :
    d.Bounded := by
  unfold wordValue? at h
  split_ifs at h
  · cases h
    exact .flag true
  · cases h
    exact .flag false
  · cases h
    exact .record (by simp [Document.Bounded.text])
  · split at h
    · rename_i heq
      cases h
      exact .integer (integerWord?_eq_some heq).1 (integerWord?_eq_some heq).2
    · obtain ⟨x, -, rfl⟩ := Option.map_eq_some_iff.mp h
      exact .real x

/-! ## Trees -/

/-- All nodes of the tree have bounded documents. -/
def Entries.Bounded (entries : Entries) : Prop := ∀ e ∈ entries, e.2.document.Bounded

namespace Entries.Bounded

variable {entries inner : Entries} {key : String} {node : Node}

theorem nil : Entries.Bounded [] := List.forall_mem_nil _

theorem append (h : entries.Bounded) (hnode : node.document.Bounded) :
    Entries.Bounded (entries ++ [(key, node)]) := by
  intro e he
  rcases List.mem_append.mp he with he | he
  · exact h e he
  · rw [List.mem_singleton.mp he]
    exact hnode

theorem replace (h : entries.Bounded) (hnode : node.document.Bounded) :
    (entries.replace key node).Bounded := by
  intro e he
  obtain ⟨old, hold, rfl⟩ := List.mem_map.mp he
  split
  · exact hnode
  · exact h old hold

theorem lookup (h : entries.Bounded) (hnode : Table.lookup key entries = some node) :
    node.document.Bounded := by
  induction entries with
  | nil => cases hnode
  | cons e entries ih =>
    obtain ⟨he, hentries⟩ := List.forall_mem_cons.mp h
    rw [Table.lookup] at hnode
    split at hnode
    · cases hnode
      exact he
    · exact ih hentries hnode

theorem table_iff (origin : Origin) :
    (Node.table origin inner).document.Bounded ↔ inner.Bounded := by
  rw [Node.document, fieldsOf_eq_map]
  constructor
  · intro h e he
    exact Document.hereditary_bounded.record h _ (List.mem_map_of_mem he)
  · intro h
    refine .record fun f hf => ?_
    obtain ⟨e, he, rfl⟩ := List.mem_map.mp hf
    exact h e he

theorem tables_iff {items : List Entries} :
    (Node.tables items).document.Bounded ↔ ∀ inner ∈ items, Entries.Bounded inner := by
  rw [Node.document, recordsOf_eq_map]
  constructor
  · intro h inner hinner
    have hrecord := Document.hereditary_bounded.list h _ (List.mem_map_of_mem hinner)
    exact (table_iff .header).mp hrecord
  · intro h
    refine .list fun d hd => ?_
    obtain ⟨inner, hinner, rfl⟩ := List.mem_map.mp hd
    exact (table_iff .header).mpr (h inner hinner)

end Entries.Bounded

/-- The change keeps a tree bounded. -/
def Preserves (change : Entries → Option Entries) : Prop :=
  ∀ entries next, Entries.Bounded entries → change entries = some next → Entries.Bounded next

theorem Preserves.bounded_changeLast? {change : Entries → Option Entries} (h : Preserves change)
    {items next : List Entries} (hitems : ∀ inner ∈ items, Entries.Bounded inner)
    (hnext : changeLast? change items = some next) : ∀ inner ∈ next, Entries.Bounded inner := by
  fun_induction changeLast? change items generalizing next with
  | case1 => cases hnext
  | case2 inner =>
    obtain ⟨after, hafter, rfl⟩ := Option.map_eq_some_iff.mp hnext
    simpa using h inner after (hitems inner (by simp)) hafter
  | case3 inner items hne ih =>
    obtain ⟨rest, hrest, rfl⟩ := Option.map_eq_some_iff.mp hnext
    obtain ⟨hinner, hitems⟩ := List.forall_mem_cons.mp hitems
    exact List.forall_mem_cons.mpr ⟨hinner, ih hitems hrest⟩

namespace Preserves

variable {change : Entries → Option Entries} {entries next inner : Entries} {key : String}

/-- A table that is made is changed, and comes last. -/
theorem new_table (h : Preserves change) (origin : Origin) (hentries : entries.Bounded)
    (hnext : ((change []).map fun inner => entries ++ [(key, .table origin inner)]) = some next) :
    next.Bounded := by
  obtain ⟨after, hafter, rfl⟩ := Option.map_eq_some_iff.mp hnext
  exact hentries.append ((Entries.Bounded.table_iff origin).mpr (h _ _ .nil hafter))

/-- The table under a key is changed. -/
theorem old_table (h : Preserves change) {origin : Origin} (hentries : entries.Bounded)
    (hlookup : Table.lookup key entries = some (.table origin inner))
    (hnext : ((change inner).map fun inner => entries.replace key (.table origin inner)) =
      some next) : next.Bounded := by
  have hold := (Entries.Bounded.table_iff origin).mp (hentries.lookup hlookup)
  obtain ⟨after, hafter, rfl⟩ := Option.map_eq_some_iff.mp hnext
  exact hentries.replace ((Entries.Bounded.table_iff origin).mpr (h _ _ hold hafter))

/-- The last of the tables under a key is changed. -/
theorem last_table (h : Preserves change) {items : List Entries} (hentries : entries.Bounded)
    (hlookup : Table.lookup key entries = some (.tables items))
    (hnext : ((changeLast? change items).map fun items => entries.replace key (.tables items)) =
      some next) : next.Bounded := by
  have hold := Entries.Bounded.tables_iff.mp (hentries.lookup hlookup)
  obtain ⟨after, hafter, rfl⟩ := Option.map_eq_some_iff.mp hnext
  exact hentries.replace (Entries.Bounded.tables_iff.mpr (h.bounded_changeLast? hold hafter))

end Preserves

theorem preserves_insertKey {node : Node} (hnode : node.document.Bounded) (path : List String) :
    Preserves (insertKey path node) := by
  induction path with
  | nil => exact fun entries next hentries h => by cases h
  | cons key rest ih =>
    intro entries next hentries h
    by_cases hlast : rest = []
    · subst hlast
      rw [insertKey] at h
      split at h
      · cases h
      · cases h
        exact hentries.append hnode
    · rw [insertKey.eq_3 _ _ _ _ hlast] at h
      split at h
      · exact ih.new_table .key hentries h
      · exact ih.old_table hentries ‹_› h
      · split at h
        · exact ih.old_table hentries ‹_› h
        · cases h
      · split at h
        · exact ih.last_table hentries ‹_› h
        · cases h
      · cases h

theorem preserves_inside {change : Entries → Option Entries} (h : Preserves change) (key : String) :
    Preserves (inside key change) := by
  intro entries next hentries hnext
  unfold inside at hnext
  split at hnext
  · exact h.new_table .path hentries hnext
  · exact h.old_table hentries ‹_› hnext
  · exact h.last_table hentries ‹_› hnext
  · cases hnext

theorem preserves_within {change : Entries → Option Entries} (h : Preserves change)
    (path : List String) : Preserves (within path change) := by
  induction path with
  | nil => exact h
  | cons key path ih => exact preserves_inside ih key

theorem preserves_openUnder (key : String) : Preserves (openUnder key) := by
  intro entries next hentries h
  unfold openUnder at h
  split at h
  · cases h
    exact hentries.append ((Entries.Bounded.table_iff .header).mpr .nil)
  · rename_i inner hlookup
    have hold := (Entries.Bounded.table_iff .path).mp (hentries.lookup hlookup)
    cases h
    refine Entries.Bounded.append (fun e he => ?_) ((Entries.Bounded.table_iff .header).mpr hold)
    exact hentries e (List.mem_of_mem_filter he)
  · cases h

theorem preserves_openItemUnder (key : String) : Preserves (openItemUnder key) := by
  intro entries next hentries h
  have hnone : ∀ inner ∈ [([] : Entries)], Entries.Bounded inner := by
    simp [Entries.Bounded.nil]
  unfold openItemUnder at h
  split at h
  · cases h
    exact hentries.append (Entries.Bounded.tables_iff.mpr hnone)
  · rename_i items hlookup
    have hold := Entries.Bounded.tables_iff.mp (hentries.lookup hlookup)
    cases h
    refine hentries.replace (Entries.Bounded.tables_iff.mpr fun inner hinner => ?_)
    rcases List.mem_append.mp hinner with hinner | hinner
    · exact hold inner hinner
    · exact hnone inner hinner
  · cases h

theorem preserves_open (item : Bool) (path : List String) :
    Preserves ((if item then openItem else openTable) path) := by
  intro entries next hentries h
  cases item with
  | true =>
    obtain ⟨key, -, h⟩ := Option.bind_eq_some_iff.mp h
    exact preserves_within (preserves_openItemUnder key) _ _ _ hentries h
  | false =>
    obtain ⟨key, -, h⟩ := Option.bind_eq_some_iff.mp h
    exact preserves_within (preserves_openUnder key) _ _ _ hentries h

/-! ## The reader -/

/-- All documents of what is open are bounded. -/
def Frame.Bounded : Frame → Prop
  | list items => ∀ d ∈ items, d.Bounded
  | record entries _ => entries.Bounded

/-- All documents that a state holds are bounded. -/
def State.Bounded : State → Prop
  | value _ outer => ∀ f ∈ outer, f.Bounded
  | item _ items outer => (∀ d ∈ items, d.Bounded) ∧ ∀ f ∈ outer, f.Bounded
  | afterItem _ items outer => (∀ d ∈ items, d.Bounded) ∧ ∀ f ∈ outer, f.Bounded
  | firstField _ outer => ∀ f ∈ outer, f.Bounded
  | field _ entries _ outer => entries.Bounded ∧ ∀ f ∈ outer, f.Bounded
  | afterField _ entries outer => entries.Bounded ∧ ∀ f ∈ outer, f.Bounded
  | _ => True

namespace Reader

/-- All documents that the reader holds are bounded. -/
structure Bounded (r : Reader) : Prop where
  tree : r.tree.Bounded
  state : r.state.Bounded

variable {r next : Reader} {key : List String} {outer : List Frame} {t : Token}

theorem bounded_goTo {state : State} (h : r.goTo state = some next) (hr : r.tree.Bounded)
    (hstate : state.Bounded) : next.Bounded := by
  cases h
  exact ⟨hr, hstate⟩

theorem bounded_deliver {d : Document} (h : r.deliver key d outer = some next)
    (hr : r.tree.Bounded) (hd : d.Bounded) (houter : ∀ f ∈ outer, f.Bounded) : next.Bounded := by
  have hnode : (Node.value d).document.Bounded := hd
  cases outer with
  | nil =>
    obtain ⟨tree, htree, rfl⟩ := Option.map_eq_some_iff.mp h
    exact ⟨preserves_within (preserves_insertKey hnode key) r.table _ _ hr htree, trivial⟩
  | cons f outer =>
    obtain ⟨hf, hrest⟩ := List.forall_mem_cons.mp houter
    cases f with
    | list items => exact bounded_goTo h hr ⟨List.forall_mem_cons.mpr ⟨hd, hf⟩, hrest⟩
    | record entries field =>
      obtain ⟨after, hafter, h⟩ := Option.bind_eq_some_iff.mp h
      exact bounded_goTo h hr ⟨preserves_insertKey hnode field _ _ hf hafter, hrest⟩

theorem bounded_nest {state : State} (h : r.nest outer state = some next) (hr : r.tree.Bounded)
    (hstate : state.Bounded) : next.Bounded := by
  unfold nest at h
  split at h
  · exact bounded_goTo h hr hstate
  · cases h

theorem bounded_begin (h : r.begin key outer t = some next) (hr : r.tree.Bounded)
    (houter : ∀ f ∈ outer, f.Bounded) : next.Bounded := by
  cases t with
  | word cs =>
    obtain ⟨d, hd, h⟩ := Option.bind_eq_some_iff.mp h
    exact bounded_deliver h hr (bounded_wordValue? hd) houter
  | string cs => exact bounded_deliver h hr (.text _) houter
  | block cs => exact bounded_deliver h hr (.text _) houter
  | openBracket => exact bounded_nest h hr ⟨List.forall_mem_nil _, houter⟩
  | openBrace => exact bounded_nest h hr houter
  | _ => cases h

theorem bounded_finishHeader {item : Bool} {path : KeyPath}
    (h : r.finishHeader item path = some next) (hr : r.tree.Bounded) : next.Bounded := by
  obtain ⟨names, -, h⟩ := Option.bind_eq_some_iff.mp h
  obtain ⟨tree, htree, rfl⟩ := Option.map_eq_some_iff.mp h
  exact ⟨preserves_open item names _ _ hr htree, trivial⟩

theorem bounded_list {items : List Document} (h : ∀ d ∈ items, d.Bounded) :
    (Document.list items.reverse).Bounded :=
  .list fun d hd => h d (List.mem_reverse.mp hd)

theorem bounded_record {entries : Entries} (h : entries.Bounded) :
    (Document.record (fieldsOf entries)).Bounded :=
  (Entries.Bounded.table_iff .header).mpr h

/-- A part of a key holds no documents. -/
theorem bounded_bind {α : Type} {part : Option α} {state : α → State}
    (h : (part.bind fun a => r.goTo (state a)) = some next) (hr : r.tree.Bounded)
    (hstate : ∀ a, (state a).Bounded) : next.Bounded := by
  obtain ⟨a, -, h⟩ := Option.bind_eq_some_iff.mp h
  exact bounded_goTo h hr (hstate a)

theorem bounded_step (hr : r.Bounded) (h : r.step t = some next) : next.Bounded := by
  have htree := hr.tree
  have hstate {state : State} (heq : r.state = state) : state.Bounded := heq ▸ hr.state
  revert h
  fun_cases Reader.step r t with
  | case1 | case9 | case12 =>
    intro h
    cases h
    exact hr
  | case2 | case23 => exact fun h => bounded_goTo h htree trivial
  | case3 | case5 | case7 => exact fun h => bounded_bind h htree fun _ => trivial
  | case4 => exact fun h => bounded_bind h htree fun _ => List.forall_mem_nil _
  | case6 path => exact fun h => bounded_finishHeader h htree
  | case8 key outer t heq => exact fun h => bounded_begin h htree (hstate heq)
  | case10 key items outer heq | case14 key items outer heq =>
    exact fun h => bounded_deliver h htree (bounded_list (hstate heq).1) (hstate heq).2
  | case11 key items outer t hline hclose heq =>
    exact fun h => bounded_begin h htree (List.forall_mem_cons.mpr (hstate heq))
  | case13 key items outer heq =>
    have hitems : (State.afterItem key items outer).Bounded := hstate heq
    exact fun h => bounded_goTo h htree hitems
  | case16 key outer heq =>
    exact fun h => bounded_deliver h htree (.record (List.forall_mem_nil _)) (hstate heq)
  | case17 key outer t hclose heq =>
    exact fun h => bounded_bind h htree fun _ => ⟨.nil, hstate heq⟩
  | case18 key entries path outer heq =>
    exact fun h => bounded_bind h htree fun _ => List.forall_mem_cons.mpr (hstate heq)
  | case19 key entries path outer t hequals heq =>
    have hentries : (State.field key entries path outer).Bounded := hstate heq
    exact fun h => bounded_bind h htree fun _ => hentries
  | case20 key entries outer heq =>
    have hentries : (State.afterField key entries outer).Bounded := hstate heq
    exact fun h => bounded_goTo h htree hentries
  | case21 key entries outer heq =>
    exact fun h => bounded_deliver h htree (bounded_record (hstate heq).1) (hstate heq).2
  | case15 | case22 | case24 =>
    intro h
    cases h

/-- One token keeps what is read bounded. -/
theorem bounded_stepToken (hr : r.Bounded) (h : r.stepToken t = some next) : next.Bounded := by
  have htwo (u : Token) (h : (r.step u).bind (·.step u) = some next) : next.Bounded := by
    obtain ⟨between, hbetween, h⟩ := Option.bind_eq_some_iff.mp h
    exact bounded_step (bounded_step hr hbetween) h
  unfold stepToken at h
  split at h
  · exact bounded_goTo h hr.tree trivial
  · exact bounded_finishHeader h hr.tree
  · exact htwo .openBracket h
  · exact htwo .closeBracket h
  · exact bounded_step hr h

theorem bounded_foldlM {ts : List Token} (hr : r.Bounded)
    (h : ts.foldlM stepToken r = some next) : next.Bounded := by
  induction ts generalizing r with
  | nil =>
    cases h
    exact hr
  | cons t ts ih =>
    rw [List.foldlM_cons] at h
    obtain ⟨between, hbetween, h⟩ := Option.bind_eq_some_iff.mp h
    exact ih (bounded_stepToken hr hbetween) h

end Reader

/-- The document of any text is bounded. -/
theorem bounded_readText? {s : String} {d : Document} (h : readText? s = some d) : d.Bounded := by
  obtain ⟨r, hrun, hfinish⟩ := Option.bind_eq_some_iff.mp h
  have hr : r.Bounded := Reader.bounded_foldlM (r := ⟨[], [], .line⟩) ⟨.nil, trivial⟩ hrun
  unfold Reader.finish? at hfinish
  split at hfinish
  · cases hfinish
    exact Reader.bounded_record hr.tree
  · cases hfinish
    exact Reader.bounded_record hr.tree
  · cases hfinish

/-- Whatever is read from a text is read from a bounded document. -/
theorem exists_of_decode {α : Type} {read : Document → Read α} {s : String} {a : α}
    (h : decode read s = .ok a) : ∃ d : Document, d.Bounded ∧ read d = .ok a := by
  unfold decode at h
  split at h
  · rename_i d hd
    exact ⟨d, bounded_readText? hd, h⟩
  · cases h

end Toml

end Tariff
