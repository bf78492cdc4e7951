import Mathlib.Data.List.Induction
import Mathlib.Tactic.Ring
import Tariff.Number.Fixed
import Tariff.Text.Blank
import Tariff.Text.Digits

/-!
# Facts about digits

* `exists_digitChar`, `notMem_of_isDigit`, `isBlank_of_isDigit`: the digits among all characters.
* `digits_eq_toDigits`: the digits of a number are those of the core library.
* `isDigit_of_mem_digits`, `digits_ne_nil`, `length_digits_of_head`: the form of the digits of a
  number.
* `value_append`, `value_padded`: the number that digits stand for.
* `pointed_parts`: digits with a point are some digits in front of it and as many behind it as asked
  for.
-/

namespace Tariff.Text

theorem isDigit_digitChar {d : ℕ} (h : d < 10) : isDigit (digitChar d) = true := by
  have table : ∀ e : Fin 10, isDigit (digitChar e) = true := by decide
  exact table ⟨d, h⟩

theorem exists_digitChar {c : Char} (h : isDigit c = true) : ∃ d < 10, digitChar d = c := by
  unfold isDigit at h
  rw [Bool.and_eq_true, decide_eq_true_eq, decide_eq_true_eq] at h
  refine ⟨c.toNat - 48, by omega, ?_⟩
  unfold digitChar
  rw [Nat.add_sub_cancel' h.1, Char.ofNat_toNat]

/-- No other character stands among digits. -/
theorem notMem_of_isDigit {cs : List Char} {d : Char} (hd : isDigit d = false)
    (h : ∀ c ∈ cs, isDigit c = true) : d ∉ cs := by
  intro hmem
  rw [h d hmem] at hd
  cases hd

theorem isBlank_of_isDigit {c : Char} (h : isDigit c = true) : isBlank c = false := by
  have table : ∀ d : Fin 10, isBlank (digitChar d) = false := by decide
  obtain ⟨d, hd, rfl⟩ := exists_digitChar h
  exact table ⟨d, hd⟩

theorem digitChar_eq {d : ℕ} (h : d < 10) : digitChar d = d.digitChar := by
  have table : ∀ e : Fin 10, digitChar e = Nat.digitChar e := by decide
  exact table ⟨d, h⟩

theorem digits_eq_toDigits (n : ℕ) : digits n = Nat.toDigits 10 n := by
  fun_induction digits n with
  | case1 n hlt => rw [Nat.toDigits_of_lt_base hlt, digitChar_eq hlt]
  | case2 n hge ih =>
    rw [Nat.toDigits_eq_if (by decide), if_neg hge, ih, digitChar_eq (Nat.mod_lt n (by decide))]

theorem isDigit_of_mem_digits {n : ℕ} {c : Char} (h : c ∈ digits n) : isDigit c = true := by
  fun_induction digits n with
  | case1 n hlt =>
    rw [List.mem_singleton.mp h]
    exact isDigit_digitChar hlt
  | case2 n hge ih =>
    rcases List.mem_append.mp h with h | h
    · exact ih h
    · rw [List.mem_singleton.mp h]
      exact isDigit_digitChar (Nat.mod_lt n (by decide))

theorem digits_ne_nil (n : ℕ) : digits n ≠ [] := by
  unfold digits
  split <;> simp

/-- Only zero is written with a zero in front. -/
theorem length_digits_of_head {n : ℕ} (h : (digits n).head? = some '0') : (digits n).length = 1 := by
  fun_induction digits n with
  | case1 n hlt => rfl
  | case2 n hge ih =>
    -- Else the digits in front are a single zero, and the number is below ten.
    obtain ⟨c, cs, hc⟩ := List.exists_cons_of_ne_nil (digits_ne_nil (n / 10))
    rw [hc, List.cons_append, List.head?_cons, Option.some.injEq] at h
    have hone := ih (by rw [hc, h, List.head?_cons])
    have hvalue := value_digits (n / 10)
    rw [hc, List.length_cons, Nat.add_eq_right, List.length_eq_zero_iff] at hone
    rw [hc, hone, h] at hvalue
    have : value ['0'] = 0 := rfl
    omega

theorem value_append (cs ds : List Char) :
    value (cs ++ ds) = value cs * 10 ^ ds.length + value ds := by
  induction ds using List.reverseRecOn with
  | nil => simp [value]
  | append_singleton ds c ih =>
    rw [← List.append_assoc, value_append_singleton, ih, value_append_singleton, List.length_append,
      List.length_singleton, pow_succ]
    ring

theorem value_replicate_zero (k : ℕ) : value (List.replicate k '0') = 0 := by
  induction k with
  | zero => rfl
  | succ k ih =>
    rw [List.replicate_succ', value_append_singleton, ih]
    rfl

theorem value_padded (width n : ℕ) : value (padded width n) = n := by
  unfold padded
  rw [value_append, value_replicate_zero, zero_mul, zero_add, value_digits]

theorem isDigit_of_mem_padded {width n : ℕ} {c : Char} (h : c ∈ padded width n) :
    isDigit c = true := by
  rcases List.mem_append.mp h with h | h
  · rw [List.eq_of_mem_replicate h]
    decide
  · exact isDigit_of_mem_digits h

theorem le_length_padded (width n : ℕ) : width ≤ (padded width n).length := by
  unfold padded
  rw [List.length_append, List.length_replicate]
  omega

end Tariff.Text

namespace Tariff.Number

open Text

/-- Digits with a point: some in front of it, without zeros that need not be there, and `places`
behind it. -/
theorem pointed_parts {places : ℕ} (hplaces : places ≠ 0) (units : ℕ) :
    ∃ whole behind, pointed places units = whole ++ '.' :: behind ∧ whole ≠ [] ∧
      behind.length = places ∧ value (whole ++ behind) = units ∧
      (∀ c ∈ whole ++ behind, isDigit c = true) ∧ (whole.head? = some '0' → whole.length = 1) := by
  have hlen := le_length_padded (places + 1) units
  have hparts := List.take_append_drop ((padded (places + 1) units).length - places)
    (padded (places + 1) units)
  refine ⟨_, _, if_neg hplaces, ?_, ?_, ?_, ?_, ?_⟩
  · rw [Ne, ← List.length_eq_zero_iff, List.length_take]
    omega
  · rw [List.length_drop]
    omega
  · rw [hparts, value_padded]
  · rw [hparts]
    exact fun c hc => isDigit_of_mem_padded hc
  · intro hhead
    rw [List.length_take]
    by_cases hshort : (digits units).length ≤ places
    · have : (padded (places + 1) units).length = places + 1 := by
        unfold padded
        rw [List.length_append, List.length_replicate]
        omega
      omega
    · -- Nothing is padded, so the first digit is that of the number.
      have hpadded : padded (places + 1) units = digits units := by
        unfold padded
        rw [show places + 1 - (digits units).length = 0 by omega]
        rfl
      rw [hpadded] at hhead ⊢
      rw [List.head?_take, if_neg (by omega)] at hhead
      have := length_digits_of_head hhead
      omega

end Tariff.Number
