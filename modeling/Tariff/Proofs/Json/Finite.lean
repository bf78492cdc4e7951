import Tariff.Json.Reader
import Tariff.Proofs.Document

/-!
# Numbers of a text

A text may spell numbers that are beyond every float, and whole numbers beyond 64 bits. Neither gets
into its document.

* `isFinite_tokens`: all tokens of a text are finite.
* `State.isFinite_step`: a token that is finite keeps the machine that builds documents so.
* `isFinite_readText`: the document of any text is finite.
-/

namespace Tariff.Json

open Number Text

/-! ## Tokens -/

theorem isFinite_finiteReal (x : Float) : (finiteReal x).IsFinite := by
  unfold finiteReal
  by_cases hx : x.isFinite = true
  · rw [if_pos hx]
    exact hx
  · rw [if_neg hx]
    exact trivial

theorem Literal.isFinite_document (l : Literal) : l.document.IsFinite := by
  unfold Literal.document
  by_cases hwhole : (l.places.isNone && l.exponent.isNone) = true
  · rw [if_pos hwhole]
    by_cases hneg : l.negative = true
    · simp only [hneg, if_true]
      split
      · rename_i hsmall
        rw [Bool.and_eq_true, decide_eq_true_eq, decide_eq_true_eq] at hsmall
        have hlow := hsmall.2
        norm_num at hlow
        show -2 ^ 63 ≤ -(value l.whole : ℤ) ∧ -(value l.whole : ℤ) < 2 ^ 64
        omega
      · exact isFinite_finiteReal _
    · simp only [hneg, Bool.false_eq_true, if_false]
      split
      · rename_i hsmall
        norm_num at hsmall
        show -2 ^ 63 ≤ (value l.whole : ℤ) ∧ (value l.whole : ℤ) < 2 ^ 64
        omega
      · exact isFinite_finiteReal _
  · rw [if_neg hwhole]
    exact isFinite_finiteReal _

/-- The value of the token, if it has one, is finite. -/
def Token.IsFinite : Token → Prop
  | scalar d => d.IsFinite
  | _ => True

theorem isFinite_scanToken {cs rest : List Char} {t : Token} (h : scanToken cs = some (t, rest)) :
    t.IsFinite := by
  unfold scanToken at h
  split at h
  case h_1 => cases h
  case h_8 | h_9 | h_10 | h_11 =>
    obtain ⟨_, -, hp⟩ := Option.map_eq_some_iff.mp h
    cases hp
    exact trivial
  case h_12 =>
    obtain ⟨p, -, hp⟩ := Option.map_eq_some_iff.mp h
    cases hp
    exact p.1.isFinite_document
  all_goals
    cases h
    exact trivial

/-- All tokens of a text are finite. -/
theorem isFinite_tokens (cs : List Char) : ∀ t ∈ tokens cs, t.IsFinite := by
  fun_induction tokens cs with
  | case1 =>
    intro t ht
    cases ht
  | case2 c rest hspace ih => exact ih
  | case3 c rest hspace hnone =>
    intro t ht
    rw [List.mem_singleton] at ht
    rw [ht]
    exact trivial
  | case4 c rest hspace t rest' hsome ih =>
    rw [List.forall_mem_cons]
    exact ⟨isFinite_scanToken hsome, ih⟩

/-! ## The machine -/

/-- All documents of what is open are finite. -/
def Frame.IsFinite : Frame → Prop
  | list items => ∀ d ∈ items, d.IsFinite
  | record fields _ => ∀ e ∈ fields, e.2.IsFinite

namespace State

/-- All documents that the machine holds are finite. -/
def IsFinite : State → Prop
  | value outer => ∀ f ∈ outer, f.IsFinite
  | firstItem outer => ∀ f ∈ outer, f.IsFinite
  | afterItem items outer => (∀ d ∈ items, d.IsFinite) ∧ ∀ f ∈ outer, f.IsFinite
  | firstKey outer => ∀ f ∈ outer, f.IsFinite
  | nextKey fields outer => (∀ e ∈ fields, e.2.IsFinite) ∧ ∀ f ∈ outer, f.IsFinite
  | colon fields _ outer => (∀ e ∈ fields, e.2.IsFinite) ∧ ∀ f ∈ outer, f.IsFinite
  | afterField fields outer => (∀ e ∈ fields, e.2.IsFinite) ∧ ∀ f ∈ outer, f.IsFinite
  | done d _ => d.IsFinite

variable {outer : List Frame} {d : Document}

theorem isFinite_list {items : List Document} (h : ∀ d ∈ items, d.IsFinite) :
    (Document.list items.reverse).IsFinite :=
  Document.allFinite_iff.mpr fun d hd => h d (List.mem_reverse.mp hd)

theorem isFinite_record {fields : List (Option String × Document)}
    (h : ∀ e ∈ fields, e.2.IsFinite) : (Document.record fields.reverse).IsFinite :=
  Document.fieldsFinite_iff.mpr fun e he => h e (List.mem_reverse.mp he)

theorem isFinite_deliver (hd : d.IsFinite) (houter : ∀ f ∈ outer, f.IsFinite) :
    (deliver d outer).IsFinite := by
  cases outer with
  | nil => exact hd
  | cons f outer =>
    obtain ⟨hf, hrest⟩ := List.forall_mem_cons.mp houter
    cases f with
    | list items => exact ⟨List.forall_mem_cons.mpr ⟨hd, hf⟩, hrest⟩
    | record fields key => exact ⟨List.forall_mem_cons.mpr ⟨hd, hf⟩, hrest⟩

theorem isFinite_closeAll (hd : d.IsFinite) (houter : ∀ f ∈ outer, f.IsFinite) :
    (closeAll d outer).IsFinite := by
  induction outer generalizing d with
  | nil => exact hd
  | cons f outer ih =>
    obtain ⟨hf, hrest⟩ := List.forall_mem_cons.mp houter
    cases f with
    | list items => exact ih (isFinite_list (List.forall_mem_cons.mpr ⟨hd, hf⟩)) hrest
    | record fields key => exact ih (isFinite_record (List.forall_mem_cons.mpr ⟨hd, hf⟩)) hrest

theorem isFinite_fail (houter : ∀ f ∈ outer, f.IsFinite) : (fail outer).IsFinite :=
  isFinite_closeAll trivial houter

theorem isFinite_begin {t : Token} (ht : t.IsFinite) (houter : ∀ f ∈ outer, f.IsFinite) :
    (begin outer t).IsFinite := by
  cases t with
  | openArray => exact houter
  | openObject => exact houter
  | string value =>
    cases value with
    | none => exact isFinite_deliver trivial houter
    | some s => exact isFinite_deliver trivial houter
  | scalar d => exact isFinite_deliver ht houter
  | _ => exact isFinite_fail houter

/-- A token that is finite keeps the machine so. -/
theorem isFinite_step {s : State} {t : Token} (ht : t.IsFinite) (hs : s.IsFinite) :
    (s.step t).IsFinite := by
  cases s with
  | value outer => exact isFinite_begin ht hs
  | firstItem outer =>
    have hinner : ∀ f ∈ Frame.list [] :: outer, f.IsFinite :=
      List.forall_mem_cons.mpr ⟨List.forall_mem_nil _, hs⟩
    cases t with
    | closeArray => exact isFinite_deliver trivial hs
    | _ => exact isFinite_begin ht hinner
  | afterItem items outer =>
    have hinner : ∀ f ∈ Frame.list items :: outer, f.IsFinite := List.forall_mem_cons.mpr hs
    cases t with
    | comma => exact hinner
    | closeArray => exact isFinite_deliver (isFinite_list hs.1) hs.2
    | _ => exact isFinite_fail hinner
  | firstKey outer =>
    have hempty : ∀ e ∈ ([] : List (Option String × Document)), e.2.IsFinite :=
      List.forall_mem_nil _
    cases t with
    | closeObject => exact isFinite_deliver trivial hs
    | string key => exact ⟨hempty, hs⟩
    | _ => exact isFinite_fail (List.forall_mem_cons.mpr ⟨hempty, hs⟩)
  | nextKey fields outer =>
    cases t with
    | string key => exact hs
    | _ => exact isFinite_fail (List.forall_mem_cons.mpr hs)
  | colon fields key outer =>
    cases t with
    | colon => exact List.forall_mem_cons.mpr hs
    | _ => exact isFinite_fail (List.forall_mem_cons.mpr hs)
  | afterField fields outer =>
    cases t with
    | comma => exact hs
    | closeObject => exact isFinite_deliver (isFinite_record hs.1) hs.2
    | _ => exact isFinite_fail (List.forall_mem_cons.mpr hs)
  | done d ended => exact hs

theorem isFinite_foldl {ts : List Token} (hts : ∀ t ∈ ts, t.IsFinite) {s : State}
    (hs : s.IsFinite) : (ts.foldl step s).IsFinite := by
  induction ts generalizing s with
  | nil => exact hs
  | cons t ts ih =>
    obtain ⟨ht, hts⟩ := List.forall_mem_cons.mp hts
    exact ih hts (isFinite_step ht hs)

theorem isFinite_finish {s : State} (hs : s.IsFinite) : s.finish.1.IsFinite := by
  have hempty : ∀ e ∈ ([] : List (Option String × Document)), e.2.IsFinite :=
    List.forall_mem_nil _
  cases s with
  | value outer => exact isFinite_closeAll trivial hs
  | firstItem outer =>
    exact isFinite_closeAll trivial
      (List.forall_mem_cons.mpr ⟨List.forall_mem_nil _, hs⟩)
  | firstKey outer => exact isFinite_closeAll trivial (List.forall_mem_cons.mpr ⟨hempty, hs⟩)
  | done d ended => exact hs
  | _ => exact isFinite_closeAll trivial (List.forall_mem_cons.mpr hs)

end State

/-- The document of any text is finite. -/
theorem isFinite_readText (s : String) : (readText s).1.IsFinite := by
  have hstart : (State.value []).IsFinite := List.forall_mem_nil _
  exact State.isFinite_finish (State.isFinite_foldl (isFinite_tokens s.toList) hstart)

/-- What is read from a text is read from a finite document. -/
theorem exists_of_decode {α : Type} {read : Document → Read α} {s : String} {a : α}
    (h : decode read s = .ok a) : ∃ d : Document, d.IsFinite ∧ read d = .ok a := by
  have hfinite := isFinite_readText s
  unfold decode at h
  generalize readText s = p at hfinite h
  obtain ⟨d, ended⟩ := p
  obtain ⟨value, hread, hended⟩ := bind_eq_ok_iff.mp h
  cases ended with
  | false => cases hended
  | true =>
    cases hended
    exact ⟨d, hfinite, hread⟩

end Tariff.Json
