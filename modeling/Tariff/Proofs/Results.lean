import Mathlib.Data.List.Forall2

/-!
# Computations that succeed

* `map_eq_ok_iff`, `exists_map_eq_ok_iff`, `bind_eq_ok_iff`, `mapError_eq_ok_iff`: when a
  computation made of another one succeeds. `map_eq_error_iff`: when it fails.
* `mapM_eq_ok_iff`, `exists_mapM_eq_ok_iff`: when one on a list does.
* `mapM_eq_error_iff`: which element one on a list fails at.
-/

namespace Tariff

variable {ε α β : Type}

theorem map_eq_ok_iff {f : α → β} {x : Except ε α} {b : β} :
    x.map f = .ok b ↔ ∃ a, x = .ok a ∧ f a = b := by
  cases x with
  | error fault =>
    constructor
    · rintro ⟨⟩
    · rintro ⟨a, ⟨⟩, _⟩
  | ok a =>
    constructor
    · rintro ⟨⟩
      exact ⟨a, rfl, rfl⟩
    · rintro ⟨a, ⟨⟩, rfl⟩
      rfl

theorem exists_map_eq_ok_iff {f : α → β} {x : Except ε α} :
    (∃ b, x.map f = .ok b) ↔ ∃ a, x = .ok a := by
  constructor
  · rintro ⟨b, h⟩
    obtain ⟨a, ha, -⟩ := map_eq_ok_iff.mp h
    exact ⟨a, ha⟩
  · rintro ⟨a, ha⟩
    exact ⟨f a, map_eq_ok_iff.mpr ⟨a, ha, rfl⟩⟩

theorem map_eq_error_iff {f : α → β} {x : Except ε α} {fault : ε} :
    x.map f = .error fault ↔ x = .error fault := by
  cases x with
  | error cause => exact ⟨fun h => by cases h; rfl, fun h => by cases h; rfl⟩
  | ok a => exact ⟨nofun, nofun⟩

theorem bind_eq_ok_iff {f : α → Except ε β} {x : Except ε α} {b : β} :
    x.bind f = .ok b ↔ ∃ a, x = .ok a ∧ f a = .ok b := by
  cases x with
  | error fault =>
    constructor
    · rintro ⟨⟩
    · rintro ⟨a, ⟨⟩, _⟩
  | ok a =>
    constructor
    · intro h
      exact ⟨a, rfl, h⟩
    · rintro ⟨a, ⟨⟩, h⟩
      exact h

theorem mapError_eq_ok_iff {δ : Type} {f : ε → δ} {x : Except ε α} {a : α} :
    x.mapError f = .ok a ↔ x = .ok a := by
  cases x with
  | error fault => exact ⟨nofun, nofun⟩
  | ok b => exact ⟨fun h => by cases h; rfl, fun h => by cases h; rfl⟩

theorem mapM_eq_ok_iff {f : α → Except ε β} {xs : List α} {ys : List β} :
    xs.mapM f = .ok ys ↔ List.Forall₂ (fun x y => f x = .ok y) xs ys := by
  induction xs generalizing ys with
  | nil =>
    rw [List.mapM_nil, List.forall₂_nil_left_iff]
    exact ⟨fun h => by cases h; rfl, fun h => by rw [h]; rfl⟩
  | cons x xs ih =>
    rw [List.mapM_cons, List.forall₂_cons_left_iff]
    constructor
    · intro h
      obtain ⟨y, hx, h⟩ := bind_eq_ok_iff.mp h
      obtain ⟨zs, hxs, h⟩ := bind_eq_ok_iff.mp h
      cases h
      exact ⟨y, zs, hx, ih.mp hxs, rfl⟩
    · rintro ⟨y, zs, hx, hxs, rfl⟩
      rw [hx, ih.mpr hxs]
      rfl

theorem exists_of_mapM {f : α → Except ε β} {xs : List α} {ys : List β}
    (h : xs.mapM f = .ok ys) {y : β} (hy : y ∈ ys) : ∃ x ∈ xs, f x = .ok y := by
  have hall := mapM_eq_ok_iff.mp h
  clear h
  induction hall with
  | nil => cases hy
  | cons hx _ ih =>
    rcases List.mem_cons.mp hy with rfl | hy
    · exact ⟨_, List.mem_cons_self, hx⟩
    · obtain ⟨x, hmem, hx⟩ := ih hy
      exact ⟨x, List.mem_cons_of_mem _ hmem, hx⟩

/-- A computation on a list fails as the first element does that it fails on. -/
theorem mapM_eq_error_iff {f : α → Except ε β} {xs : List α} {fault : ε} :
    xs.mapM f = .error fault ↔
      ∃ earlier x later, xs = earlier ++ x :: later ∧ (∀ y ∈ earlier, ∃ z, f y = .ok z) ∧
        f x = .error fault := by
  induction xs with
  | nil =>
    refine ⟨nofun, ?_⟩
    rintro ⟨earlier, x, later, hxs, -⟩
    simp at hxs
  | cons y ys ih =>
    rw [List.mapM_cons]
    cases hy : f y with
    | error cause =>
      constructor
      · rintro ⟨⟩
        exact ⟨[], y, ys, rfl, List.forall_mem_nil _, hy⟩
      · rintro ⟨earlier, x, later, hxs, hearlier, hx⟩
        cases earlier with
        | nil =>
          cases hxs
          cases hy.symm.trans hx
          rfl
        | cons first earlier =>
          cases hxs
          obtain ⟨z, hz⟩ := hearlier _ List.mem_cons_self
          cases hy.symm.trans hz
    | ok z =>
      have hrest : (Except.ok z).bind (fun z => (ys.mapM f).bind fun zs => .ok (z :: zs)) =
          .error fault ↔ ys.mapM f = .error fault := by
        cases ys.mapM f with
        | error cause => exact Iff.rfl
        | ok zs => exact ⟨nofun, nofun⟩
      refine hrest.trans (ih.trans ?_)
      constructor
      · rintro ⟨earlier, x, later, rfl, hearlier, hx⟩
        exact ⟨y :: earlier, x, later, rfl, List.forall_mem_cons.mpr ⟨⟨z, hy⟩, hearlier⟩, hx⟩
      · rintro ⟨earlier, x, later, hxs, hearlier, hx⟩
        cases earlier with
        | nil =>
          cases hxs
          cases hy.symm.trans hx
        | cons first earlier =>
          cases hxs
          exact ⟨earlier, x, later, rfl, (List.forall_mem_cons.mp hearlier).2, hx⟩

theorem exists_mapM_eq_ok_iff {f : α → Except ε β} {xs : List α} :
    (∃ ys, xs.mapM f = .ok ys) ↔ ∀ x ∈ xs, ∃ y, f x = .ok y := by
  constructor
  · rintro ⟨ys, h⟩
    induction mapM_eq_ok_iff.mp h with
    | nil => exact List.forall_mem_nil _
    | cons hx hxs ih => exact List.forall_mem_cons.mpr ⟨⟨_, hx⟩, ih (mapM_eq_ok_iff.mpr hxs)⟩
  · intro hall
    cases h : xs.mapM f with
    | ok ys => exact ⟨ys, rfl⟩
    | error fault =>
      obtain ⟨earlier, x, later, rfl, -, hx⟩ := mapM_eq_error_iff.mp h
      obtain ⟨y, hy⟩ := hall x (by simp)
      cases hx.symm.trans hy

end Tariff
