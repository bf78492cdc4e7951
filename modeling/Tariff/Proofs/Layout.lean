import Tariff.Number.Layout
import Tariff.Proofs.Digits
import Tariff.Proofs.Float.Numeral

/-!
# Numbers written out

* `Layout.plain_parts`: what is written without an exponent is digits, a point and digits, where the
  layout keeps the point.
* `Layout.exists_numeral_text`: the text of a float is that of a numeral which is read as the float
  again.
-/

namespace Tariff.Number

open Text

variable {n : Numeral}

/-- The sign in front of a number. -/
def signChars (negative : Bool) : List Char := if negative then ['-'] else []

theorem toList_signText (negative : Bool) : (signText negative).toList = signChars negative := by
  cases negative <;> rfl

/-- Digits that do not end in zeros are only zero without a power of ten. -/
theorem exponent_normalized (n : Numeral) (h : n.normalized.digits = 0) :
    n.normalized.exponent = 0 := by
  fun_induction Numeral.normalized n with
  | case1 n hzero => rfl
  | case2 n hne hten ih => exact ih h
  | case3 n hne hten => exact absurd h hne

namespace Layout

/-- A number with zeros behind its digits starts with a zero only if it is zero. -/
theorem length_of_head_zeros (hn : n.digits = 0 → n.exponent = 0)
    (h : (digits n.digits ++ List.replicate n.exponent.toNat '0').head? = some '0') :
    (digits n.digits ++ List.replicate n.exponent.toNat '0').length = 1 := by
  obtain ⟨c, cs, hc⟩ := List.exists_cons_of_ne_nil (digits_ne_nil n.digits)
  rw [hc, List.cons_append, List.head?_cons, Option.some.injEq] at h
  have hlen := length_digits_of_head (n := n.digits) (by rw [hc, h, List.head?_cons])
  have hvalue := value_digits n.digits
  rw [hc, List.length_cons, Nat.add_eq_right, List.length_eq_zero_iff] at hlen
  rw [hc, hlen, h] at hvalue
  have hzero : n.digits = 0 := hvalue.symm
  rw [hc, hlen, hn hzero]
  rfl

/-- Without an exponent, a number is written as digits in front of a point, without zeros that need
not be there, and digits behind it. -/
theorem plain_parts (layout : Layout) (hpoint : layout.keepsPoint = true)
    (hn : n.digits = 0 → n.exponent = 0) :
    ∃ whole places, layout.plain n = whole ++ '.' :: places ∧ whole ≠ [] ∧ places ≠ [] ∧
      (∀ c ∈ whole ++ places, isDigit c = true) ∧
      (whole.head? = some '0' → whole.length = 1) ∧
      (value (whole ++ places) : ℚ) * 10 ^ (0 - (places.length : ℤ)) = n.abs := by
  unfold plain Numeral.abs
  split
  · rename_i hexp
    refine ⟨digits n.digits ++ List.replicate n.exponent.toNat '0', ['0'], rfl, ?_,
      List.cons_ne_nil _ _, ?_, length_of_head_zeros hn, ?_⟩
    · exact List.append_ne_nil_of_left_ne_nil (digits_ne_nil _) _
    · intro c hc
      rcases List.mem_append.mp hc with hc | hc
      · rcases List.mem_append.mp hc with hc | hc
        · exact isDigit_of_mem_digits hc
        · rw [List.eq_of_mem_replicate hc]
          decide
      · rw [List.mem_singleton.mp hc]
        decide
    · obtain ⟨k, hk⟩ := Int.eq_ofNat_of_zero_le hexp
      have hzero : value ['0'] = 0 := rfl
      rw [value_append, value_append, value_digits, value_replicate_zero, hk, hzero]
      simp
  · rename_i hexp
    have hplaces : (-n.exponent).toNat ≠ 0 := by omega
    obtain ⟨whole, behind, heq, hne, hlen, hvalue, hdigits, hhead⟩ := pointed_parts hplaces n.digits
    refine ⟨whole, behind, heq, hne, ?_, hdigits, hhead, ?_⟩
    · rintro rfl
      exact hplaces hlen.symm
    · rw [hvalue, hlen]
      congr 2
      omega

/-- The text of a float is that of a numeral which is read as the float again. -/
theorem exists_numeral_text (layout : Layout) {x : Float} (hx : x.isFinite = true) :
    ∃ n : Numeral, n.toFloat = x ∧ (n.digits = 0 → n.exponent = 0) ∧
      (layout.text x).toList = signChars n.negative ++
        if layout.isPlain (order n) then layout.plain n else scientific n := by
  obtain ⟨b, hb⟩ := isFinite_iff.mp hx
  refine ⟨shortest layout.tie x b, toFloat_shortest hb, exponent_normalized _, ?_⟩
  unfold text write
  rw [hb]
  dsimp only
  rw [String.toList_append, toList_signText, String.toList_ofList]

end Layout

end Tariff.Number
