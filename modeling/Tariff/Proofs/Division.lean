import Tariff.Proofs.Arithmetic

/-!
# Division as a rounding

A long division adds digits until nothing remains or no digit fits, and only then is the quotient
rounded. Zeros at the end go without a change to the number.

* `Division.toRat`: the number that a quotient and its remainder stand for. `toRat_refine`: the
  steps of a long division keep it.
* `refine_ends`: what a long division ends with.
* `value_divNat?`: the quotient of a decimal, as a rounding.
-/

namespace Tariff.Decimal

open Number

variable {divisor : ℕ} {p : Division}

/-- The number that a quotient with a remainder stands for. -/
def Division.toRat (divisor : ℕ) (p : Division) : ℚ :=
  ((p.quotient * divisor + p.remainder : ℕ) : ℚ) / (divisor * 10 ^ p.scale)

/-- The digits that one step of a long division adds. -/
def Division.step (divisor : ℕ) (p : Division) : Division :=
  let tens := 10 ^ room p
  ⟨p.quotient * tens + p.remainder * tens / divisor, p.remainder * tens % divisor, p.scale + room p⟩

/-! ## The steps of a long division -/

theorem toRat_step (hd : 0 < divisor) : (p.step divisor).toRat divisor = p.toRat divisor := by
  have hunits : (p.step divisor).quotient * divisor + (p.step divisor).remainder =
      (p.quotient * divisor + p.remainder) * 10 ^ room p := by
    have hrest := Nat.div_add_mod (p.remainder * 10 ^ room p) divisor
    calc (p.step divisor).quotient * divisor + (p.step divisor).remainder
        = p.quotient * 10 ^ room p * divisor + (divisor * (p.remainder * 10 ^ room p / divisor) +
            p.remainder * 10 ^ room p % divisor) := by
          unfold Division.step
          ring
      _ = (p.quotient * divisor + p.remainder) * 10 ^ room p := by
          rw [hrest]
          ring
  have hscale : (p.step divisor).scale = p.scale + room p := rfl
  have hd' : (divisor : ℚ) ≠ 0 := by exact_mod_cast hd.ne'
  unfold Division.toRat
  rw [hunits, hscale, pow_add]
  push_cast
  field_simp

/-- Where no digit can be added, all places are used or one more digit is too many. -/
theorem of_room_eq_zero (h : room p = 0) :
    maxScale ≤ p.scale ∨ unitLimit ≤ p.quotient * 10 := by
  by_contra! hmore
  obtain ⟨hscale, hunits⟩ := hmore
  have hmem : 1 ∈ (List.range 10).reverse.filter fun k => k ≤ maxScale - p.scale := by
    rw [List.mem_filter, List.mem_reverse, List.mem_range, decide_eq_true_eq]
    omega
  have hsorted : ((List.range 10).reverse.filter fun k => k ≤ maxScale - p.scale).Pairwise (· > ·) :=
    (List.pairwise_reverse.mpr List.pairwise_lt_range).filter _
  have hone : decide (p.quotient * 10 ^ 1 < unitLimit) = true := by
    rw [decide_eq_true_eq, pow_one]
    exact hunits
  unfold room at h
  cases hfind : ((List.range 10).reverse.filter fun k => k ≤ maxScale - p.scale).find? fun k =>
      p.quotient * 10 ^ k < unitLimit with
  | none => exact absurd hone (List.find?_eq_none.mp hfind 1 hmem)
  | some k =>
    rw [hfind, Option.getD_some] at h
    obtain ⟨-, -, hmost⟩ :=
      (find?_eq_some_iff_of_pairwise (fun h => Nat.lt_asymm h) hsorted).mp hfind
    have := hmost 1 hmem hone
    omega

/-- What a long division ends with, next to the number that it keeps. -/
structure Division.Ends (divisor : ℕ) (p : Division) (q : ℚ) : Prop where
  toRat_eq : p.toRat divisor = q
  ends : p.remainder = 0 ∨ maxScale ≤ p.scale ∨ unitLimit ≤ p.quotient * 10

theorem refine_ends (hd : 0 < divisor) (p : Division) :
    (refine divisor p).Ends divisor (p.toRat divisor) := by
  fun_induction refine divisor p with
  | case1 p h =>
    refine ⟨rfl, ?_⟩
    rcases h with h | h
    · exact .inl h
    · exact .inr (of_room_eq_zero h)
  | case2 p h tens ih =>
    refine ⟨?_, ih.ends⟩
    rw [ih.toRat_eq]
    exact toRat_step hd

/-- The end of a long division has no more places to give, or needs none. -/
theorem Division.Ends.exact {q : ℚ} (hd : 0 < divisor) (h : p.Ends divisor q) :
    maxScale ≤ p.scale ∨
      ¬ Fits ((p.quotient * divisor + p.remainder : ℕ) / (divisor * 10 ^ p.scale)) (p.scale + 1) ∨
      divisor ∣ p.quotient * divisor + p.remainder := by
  have hd' : (0 : ℚ) < divisor := by exact_mod_cast hd
  rcases h.ends with hzero | hscale | hunits
  · right; right
    rw [hzero, add_zero]
    exact Dvd.intro_left _ rfl
  · exact .inl hscale
  · right; left
    intro hfits
    have hle : ((p.quotient * 10 : ℕ) : ℚ) ≤
        (p.quotient * divisor + p.remainder : ℕ) / (divisor * 10 ^ p.scale) * 10 ^ (p.scale + 1) := by
      rw [pow_succ, div_mul_eq_mul_div, le_div_iff₀ (by positivity)]
      push_cast
      have : (0 : ℚ) ≤ p.remainder * (10 ^ p.scale * 10) := by positivity
      linarith
    have := halfEven_mono hle
    rw [halfEven_natCast] at this
    unfold Fits at hfits
    omega

/-! ## Zeros at the end -/

/-- The same number, in no more units and no more places. -/
structure Reduces (a b : ℕ × ℕ) : Prop where
  units_le : b.1 ≤ a.1
  scale_le : b.2 ≤ a.2
  eq : (b.1 : ℚ) / 10 ^ b.2 = (a.1 : ℚ) / 10 ^ a.2

theorem Reduces.refl (a : ℕ × ℕ) : Reduces a a := ⟨le_rfl, le_rfl, rfl⟩

theorem Reduces.trans {a b c : ℕ × ℕ} (h : Reduces a b) (h' : Reduces b c) : Reduces a c :=
  ⟨h'.units_le.trans h.units_le, h'.scale_le.trans h.scale_le, h'.eq.trans h.eq⟩

/-- A block of zeros can go. -/
theorem reduces_block {units scale width : ℕ} (hw : width ≤ scale) (h : units % 10 ^ width = 0) :
    Reduces (units, scale) (units / 10 ^ width, scale - width) := by
  obtain ⟨c, rfl⟩ := Nat.dvd_of_mod_eq_zero h
  refine ⟨Nat.div_le_self _ _, Nat.sub_le _ _, ?_⟩
  rw [Nat.mul_div_cancel_left c (by positivity)]
  have hpow : (10 : ℚ) ^ scale = 10 ^ width * 10 ^ (scale - width) := by
    rw [← pow_add, Nat.add_sub_cancel' hw]
  rw [hpow]
  push_cast
  field_simp

theorem stripEights_reduces (units scale : ℕ) : Reduces (units, scale) (stripEights units scale) := by
  fun_induction stripEights units scale with
  | case1 units scale h ih => exact (reduces_block h.2.1 h.2.2).trans ih
  | case2 units scale h => exact .refl _

theorem stripBlock_reduces (width : ℕ) (a : ℕ × ℕ) : Reduces a (stripBlock width a) := by
  unfold stripBlock
  split
  · rename_i h
    exact reduces_block h.1 h.2
  · exact .refl a

theorem strip_reduces (units scale : ℕ) : Reduces (units, scale) (strip units scale) :=
  (stripEights_reduces units scale).trans <| (stripBlock_reduces 4 _).trans <|
    (stripBlock_reduces 2 _).trans (stripBlock_reduces 1 _)

/-- A decimal without the zeros at its end is the same magnitude. -/
theorem exists_make?_strip (negative : Bool) (q : Decimal) :
    ∃ d, make? negative (strip q.magnitude q.scale).1 (strip q.magnitude q.scale).2 = some d ∧
      d.toRat = withSign negative |q.toRat| := by
  have h := strip_reduces q.magnitude q.scale
  have hunits : (strip q.magnitude q.scale).1 < unitLimit := lt_of_le_of_lt h.units_le q.units_lt
  have hscale : (strip q.magnitude q.scale).2 ≤ maxScale := h.scale_le.trans q.scale_le
  refine ⟨_, dif_pos ⟨hunits, hscale⟩, ?_⟩
  rw [toRat, cast_signed, withSign_div, h.eq, abs_toRat]

/-! ## The quotient -/

/-- The last step without a sign gives no negative number. -/
theorem units_nonneg_of_fit? {num den scale : ℕ} {d : Decimal} (hden : 0 < den)
    (h : fit? false num den scale = some d) : 0 ≤ d.units := by
  rw [(fit?_eq_some hden h).2.1]
  simp [signed]

/-- The magnitude of the exact quotient, as what a long division starts from. -/
theorem toRat_start (a : Decimal) (divisor : ℕ) :
    (⟨a.magnitude / divisor, a.magnitude % divisor, a.scale⟩ : Division).toRat divisor =
      |a.toRat / divisor| := by
  unfold Division.toRat
  rw [mul_comm, Nat.div_add_mod, abs_div, Nat.abs_cast, abs_toRat, div_div, mul_comm]

theorem value_divNat? {a : Decimal} (ha : 0 ≤ a.units) (hd : 0 < divisor) :
    value (divNat? a divisor) = rounded (a.toRat / divisor) := by
  unfold divNat?
  rw [if_neg hd.ne']
  split
  · rename_i h
    rw [toRat_eq_zero h, zero_div, rounded_zero, value_some, toRat_zero]
  · have habs : |a.toRat / divisor| = a.toRat / divisor :=
      abs_of_nonneg (div_nonneg (toRat_nonneg_iff.mpr ha) (Nat.cast_nonneg divisor))
    have hends := refine_ends hd ⟨a.magnitude / divisor, a.magnitude % divisor, a.scale⟩
    have hfit := value_fit? _ hd (hends.exact hd)
    rw [← Division.toRat, hends.toRat_eq, toRat_start, habs] at hfit
    rw [isNegative_of_nonneg ha, ← hfit]
    dsimp only
    cases hq : fit? false _ divisor _ with
    | none => rfl
    | some q =>
      rw [Option.bind_some]
      split
      · rfl
      · obtain ⟨d, hstrip, hsame⟩ := exists_make?_strip false q
        have hq' : 0 ≤ q.toRat := toRat_nonneg_iff.mpr (units_nonneg_of_fit? hd hq)
        rw [hstrip, value_some, value_some, hsame, abs_of_nonneg hq']
        rfl

end Tariff.Decimal
