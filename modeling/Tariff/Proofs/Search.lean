/-!
# The first hit in a list

The first element of a property stands behind elements without it. Where the list is ordered, it
comes before all others of the property.

* `findIdx?_eq_some_iff`: looking for the place of an element.
* `find?_eq_some_iff_of_pairwise`: looking for an element in an ordered list.
* `findSome?_eq_some_of_pairwise`: looking for the result of an element in an ordered list.
-/

namespace Tariff

variable {α β : Type} {before : α → α → Prop} {xs : List α}

/-- The place of the first element of a property. -/
theorem findIdx?_eq_some_iff {p : α → Bool} {i : Nat} :
    xs.findIdx? p = some i ↔
      ∃ a, xs[i]? = some a ∧ p a = true ∧ ∀ j b, j < i → xs[j]? = some b → p b = false := by
  rw [List.findIdx?_eq_some_iff_getElem]
  constructor
  · rintro ⟨hi, hp, hbefore⟩
    refine ⟨xs[i], List.getElem?_eq_getElem hi, hp, fun j b hj hb => ?_⟩
    obtain ⟨-, rfl⟩ := List.getElem?_eq_some_iff.mp hb
    exact Bool.eq_false_iff.mpr (hbefore j hj)
  · rintro ⟨a, ha, hp, hbefore⟩
    obtain ⟨hi, rfl⟩ := List.getElem?_eq_some_iff.mp ha
    refine ⟨hi, hp, fun j hj => ?_⟩
    exact Bool.eq_false_iff.mp (hbefore j _ hj (List.getElem?_eq_getElem (by omega)))

/-- The first element of a property in an ordered list comes before all others of it. -/
theorem find?_eq_some_iff_of_pairwise (hasymm : ∀ {a b}, before a b → ¬ before b a)
    (h : xs.Pairwise before) {p : α → Bool} {a : α} :
    xs.find? p = some a ↔ a ∈ xs ∧ p a = true ∧ ∀ b ∈ xs, p b = true → b = a ∨ before a b := by
  induction xs with
  | nil => simp
  | cons x rest ih =>
    obtain ⟨hx, hrest⟩ := List.pairwise_cons.mp h
    have ih := ih hrest
    by_cases hp : p x = true
    · rw [List.find?_cons_of_pos hp, Option.some.injEq]
      constructor
      · rintro rfl
        refine ⟨List.mem_cons_self, hp, fun b hb _ => ?_⟩
        exact (List.mem_cons.mp hb).imp_right (hx b)
      · rintro ⟨hmem, -, hfirst⟩
        rcases hfirst x List.mem_cons_self hp with rfl | hlt
        · rfl
        · rcases List.mem_cons.mp hmem with rfl | hmem
          · rfl
          · exact absurd (hx a hmem) (hasymm hlt)
    · rw [List.find?_cons_of_neg hp, ih]
      grind

/-- What is found is the result of an element, and no element before it has a result. -/
theorem findSome?_eq_some_of_pairwise (hasymm : ∀ {a b}, before a b → ¬ before b a)
    (h : xs.Pairwise before) {f : α → Option β} {b : β} (hf : xs.findSome? f = some b) :
    ∃ a ∈ xs, f a = some b ∧ ∀ c ∈ xs, before c a → f c = none := by
  obtain ⟨earlier, a, later, rfl, ha, hearlier⟩ := List.findSome?_eq_some_iff.mp hf
  refine ⟨a, List.mem_append_right _ List.mem_cons_self, ha, fun c hc hca => ?_⟩
  obtain ⟨-, hbehind, -⟩ := List.pairwise_append.mp h
  rcases List.mem_append.mp hc with hc | hc
  · exact hearlier c hc
  · rcases List.mem_cons.mp hc with rfl | hc
    · exact absurd hca (hasymm hca)
    · exact absurd hca (hasymm ((List.pairwise_cons.mp hbehind).1 c hc))

end Tariff
