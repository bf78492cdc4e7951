import Mathlib.Algebra.Order.Ring.Pow
import Tariff.Charge.FromFloat
import Tariff.Price.Basis
import Tariff.Proofs.Float.Nearest
import Tariff.Proofs.Shortfall

/-!
# The decimal of a float

Below the limit a float has a decimal, which is smaller by no more than a small share and one unit
of the last place; from the limit on it has none and counts for nothing.

* `numberOf`: the number that a float stands for.
* `overFives_eq`: a whole number is turned into digits exactly, or not at all.
* `timesFives_bounds`, `le_cutPlaces`, `cutPrecision_bounds`, `cutZeros_bounds`: what the steps for
  other numbers lose.
* `short_le_ofFloat`, `ofFloat_eq_zero`: the decimal of a float below the limit, and above.
* `ofFloat_nonneg`: a float that is not negative is charged as a decimal that is not negative.
-/

namespace Tariff.Number

/-! ## The number of a float -/

/-- The number that a float stands for; zero where it stands for none. -/
def numberOf (x : Float) : ℚ :=
  match Shape.ofFloat x with
  | .finite b => if b.negative then -b.abs else b.abs
  | _ => 0

variable {x : Float} {b : Binary}

theorem Binary.abs_nonneg (b : Binary) : 0 ≤ b.abs := by
  unfold Binary.abs
  positivity

theorem Binary.abs_eq_zero (h : b.significand = 0) : b.abs = 0 := by
  rw [Binary.abs, h, Nat.cast_zero, zero_mul]

theorem numberOf_eq (h : Shape.ofFloat x = .finite b) (hsign : b.negative = false) :
    numberOf x = b.abs := by
  unfold numberOf
  rw [h]
  exact if_neg (by rw [hsign]; exact Bool.false_ne_true)

theorem isAmount_iff : isAmount x = true ↔ x.isFinite = true ∧ ¬ x < 0.0 := by
  unfold isAmount
  rw [Bool.and_eq_true, Bool.not_eq_true', decide_eq_false_iff_not]

/-- An amount is a number without a minus sign, or a zero. -/
theorem exists_of_isAmount (h : isAmount x = true) :
    ∃ b, Shape.ofFloat x = .finite b ∧ numberOf x = b.abs ∧
      (b.negative = false ∨ b.significand = 0) := by
  obtain ⟨hfinite, hsign⟩ := isAmount_iff.mp h
  obtain ⟨b, hb⟩ := isFinite_iff.mp hfinite
  by_cases hneg : b.negative = true
  · have hzero : b.significand = 0 := by
      by_contra hne
      exact hsign (lt_zero_of_negative hb hneg hne)
    refine ⟨b, hb, ?_, .inr hzero⟩
    unfold numberOf
    rw [hb]
    dsimp only
    rw [Binary.abs_eq_zero hzero, neg_zero, ite_self]
  · have hneg : b.negative = false := Bool.eq_false_iff.mpr hneg
    exact ⟨b, hb, numberOf_eq hb hneg, .inl hneg⟩

theorem numberOf_nonneg (h : isAmount x = true) : 0 ≤ numberOf x := by
  obtain ⟨b, -, hnumber, -⟩ := exists_of_isAmount h
  rw [hnumber]
  exact b.abs_nonneg

end Tariff.Number

namespace Tariff.Decimal

open Number

variable {x : Float} {b : Binary}

/-! ## Whole numbers -/

/-- A whole number is turned into digits exactly if it is below the limit, and else not at all. -/
theorem overFives_eq (count : ℕ) {digits : ℕ} (h : digits < unitLimit) :
    overFives count ⟨digits, count⟩ =
      if digits * 2 ^ count < unitLimit then some ⟨digits * 2 ^ count, 0⟩ else none := by
  induction count generalizing digits with
  | zero =>
    rw [pow_zero, mul_one, if_pos h]
    rfl
  | succ count ih =>
    have hlimit : unitLimit = 2 * 2 ^ 95 := by decide
    have hpow : digits * 2 ^ (count + 1) = digits * 2 * 2 ^ count := by
      rw [pow_succ']
      ring
    rw [overFives]
    dsimp only
    by_cases hsmall : digits < 2 ^ 95
    · have htens : ((count + 1 : ℕ) : ℤ) - 1 = count := by omega
      rw [if_pos hsmall, htens, ih (by omega), hpow]
    · have htens : 2 * ((count + 1 : ℕ) : ℤ) > count + 1 := by omega
      have hlarge : ¬ digits * 2 ^ (count + 1) < unitLimit := by
        rw [hpow, not_lt]
        calc unitLimit ≤ digits * 2 * 1 := by omega
          _ ≤ digits * 2 * 2 ^ count := Nat.mul_le_mul_left _ Nat.one_le_two_pow
      rw [if_neg hsmall, if_pos htens, if_neg hlarge]

/-! ## Fractions -/

/-- The number of a magnitude on its way to a decimal. -/
def Scaled.toRat (a : Scaled) : ℚ := a.digits * 10 ^ a.tens

/-- Halving an even number loses nothing, and halving one that is too large to multiply very
little. -/
theorem le_half {digits : ℕ} (h : ¬ (digits % 2 ≠ 0 ∧ digits * 5 < unitLimit)) :
    (1 - 5 / 2 ^ 96) * (digits * 5 : ℚ) ≤ ((digits / 2 : ℕ) : ℚ) * 10 := by
  have hlimit : unitLimit = 2 ^ 96 := rfl
  rcases Nat.mod_two_eq_zero_or_one digits with heven | hodd
  · have hself : digits = digits / 2 * 2 := by omega
    have hself' : (digits : ℚ) = ((digits / 2 : ℕ) : ℚ) * 2 := by exact_mod_cast hself
    have hnonneg : (0 : ℚ) ≤ ((digits / 2 : ℕ) : ℚ) := by positivity
    rw [hself']
    linarith
  · have hself : digits = digits / 2 * 2 + 1 := by omega
    have hself' : (digits : ℚ) = ((digits / 2 : ℕ) : ℚ) * 2 + 1 := by exact_mod_cast hself
    have hlarge : 2 ^ 96 ≤ digits * 5 := by omega
    have hlarge' : (2 : ℚ) ^ 96 ≤ digits * 5 := by exact_mod_cast hlarge
    norm_num at hlarge' ⊢
    linarith

/-- One multiplication by five, as far as it fits. -/
theorem timesFives_succ (count : ℕ) (a : Scaled) : ∃ b,
    timesFives (count + 1) a = timesFives count b ∧ (a.digits < unitLimit → b.digits < unitLimit) ∧
      b.tens ≤ a.tens + 1 ∧ (1 - 5 / 2 ^ 96) * (a.toRat * 5) ≤ b.toRat := by
  have hten : (0 : ℚ) < 10 ^ a.tens := by positivity
  rw [timesFives]
  split
  · rename_i hodd
    refine ⟨_, rfl, fun _ => hodd.2, (lt_add_one a.tens).le, ?_⟩
    have hnonneg : (0 : ℚ) ≤ a.digits * 10 ^ a.tens := by positivity
    unfold Scaled.toRat
    push_cast
    linarith
  · rename_i hlost
    refine ⟨_, rfl, fun h => by dsimp only; omega, le_rfl, ?_⟩
    have hhalf := le_half hlost
    calc (1 - 5 / 2 ^ 96) * (a.toRat * 5)
        = (1 - 5 / 2 ^ 96) * (a.digits * 5 : ℚ) * 10 ^ a.tens := by
          unfold Scaled.toRat
          ring
      _ ≤ ((a.digits / 2 : ℕ) : ℚ) * 10 * 10 ^ a.tens := by gcongr
      _ = Scaled.toRat ⟨a.digits / 2, a.tens + 1⟩ := by
          unfold Scaled.toRat
          rw [zpow_add_one₀ (by norm_num)]
          ring

theorem timesFives_bounds (count : ℕ) {a : Scaled} (h : a.digits < unitLimit) :
    (timesFives count a).digits < unitLimit ∧ (timesFives count a).tens ≤ a.tens + count ∧
      (1 - 5 / 2 ^ 96) ^ count * (a.toRat * 5 ^ count) ≤ (timesFives count a).toRat := by
  induction count generalizing a with
  | zero => exact ⟨h, by simp [timesFives], by simp [timesFives]⟩
  | succ count ih =>
    obtain ⟨b, heq, hdigits, htens, hle⟩ := timesFives_succ count a
    obtain ⟨hdigits', htens', hle'⟩ := ih (hdigits h)
    rw [heq]
    refine ⟨hdigits', by push_cast; omega, ?_⟩
    calc (1 - 5 / 2 ^ 96) ^ (count + 1) * (a.toRat * 5 ^ (count + 1))
        = (1 - 5 / 2 ^ 96) ^ count * ((1 - 5 / 2 ^ 96) * (a.toRat * 5) * 5 ^ count) := by ring
      _ ≤ (1 - 5 / 2 ^ 96) ^ count * (b.toRat * 5 ^ count) := by gcongr
      _ ≤ (timesFives count b).toRat := hle'

/-! ## Decimal places -/

/-- The number of digits, some of which are decimal places. -/
def placed (a : ℕ × ℕ) : ℚ := a.1 / 10 ^ a.2

theorem dropPlace_le (digits : ℕ) : dropPlace digits ≤ digits := by
  unfold dropPlace
  split <;> omega

theorem le_dropPlace (digits : ℕ) : ((digits : ℚ) - 4) / 10 ≤ dropPlace digits := by
  have h : digits ≤ dropPlace digits * 10 + 4 := by
    unfold dropPlace
    split <;> omega
  have h' : (digits : ℚ) ≤ dropPlace digits * 10 + 4 := by exact_mod_cast h
  linarith

/-- A number of many places loses less than one unit of the last place that is kept: four tenths of
every place that is dropped, or the one digit that is left. -/
theorem cutPlaces_many {digits places : ℕ} (h : maxScale ≤ places) :
    ((digits : ℚ) + 1 / 2) / 10 ^ places - 1 / 10 ^ 28 ≤ placed (cutPlaces digits places) := by
  fun_induction cutPlaces digits places with
  | case1 digits places hfew =>
    obtain rfl : places = 28 := le_antisymm hfew h
    unfold placed
    rw [div_sub_div_same]
    gcongr
    linarith
  | case2 digits places hmany hzero =>
    have hdigits : (digits : ℚ) ≤ 9 := by
      have : digits ≤ 9 := by omega
      exact_mod_cast this
    have hpow : (10 : ℚ) ^ 29 ≤ 10 ^ places := pow_le_pow_right₀ (by norm_num) (not_le.mp hmany)
    calc ((digits : ℚ) + 1 / 2) / 10 ^ places - 1 / 10 ^ 28
        ≤ (9 + 1 / 2) / 10 ^ 29 - 1 / 10 ^ 28 := by gcongr
      _ ≤ placed (0, 0) := by norm_num [placed]
  | case3 digits places hmany hrest ih =>
    have hpow : (10 : ℚ) ^ places = 10 ^ (places - 1) * 10 := by
      rw [← pow_succ, Nat.sub_add_cancel (by omega)]
    have hdrop := le_dropPlace digits
    refine le_trans (sub_le_sub_right ?_ _) (ih (by omega))
    rw [hpow, div_le_div_iff₀ (by positivity) (by positivity)]
    have hpos : (0 : ℚ) < 10 ^ (places - 1) := by positivity
    nlinarith

theorem cutPlaces_bounds (digits places : ℕ) :
    (cutPlaces digits places).1 ≤ digits ∧ (cutPlaces digits places).2 ≤ maxScale := by
  fun_induction cutPlaces digits places with
  | case1 digits places hfew => exact ⟨le_rfl, hfew⟩
  | case2 digits places hmany hzero => exact ⟨Nat.zero_le _, Nat.zero_le _⟩
  | case3 digits places hmany hrest ih => exact ⟨ih.1.trans (dropPlace_le digits), ih.2⟩

theorem le_cutPlaces (digits places : ℕ) :
    placed (digits, places) - 1 / 10 ^ 28 ≤ placed (cutPlaces digits places) := by
  rcases le_or_gt places maxScale with hfew | hmany
  · rw [cutPlaces, if_pos hfew]
    norm_num
  · refine le_trans (sub_le_sub_right ?_ _) (cutPlaces_many hmany.le)
    unfold placed
    gcongr
    norm_num

/-- Of more digits than a float tells apart, a dropped one is worth next to nothing. -/
theorem cutPrecision_bounds (digits places : ℕ) :
    (cutPrecision digits places).1 ≤ digits ∧ (cutPrecision digits places).2 ≤ places ∧
      (1 - 4 / 2 ^ 52) ^ places * placed (digits, places) ≤
        placed (cutPrecision digits places) := by
  induction places generalizing digits with
  | zero => simp [cutPrecision]
  | succ places ih =>
    rw [cutPrecision]
    split
    · refine ⟨le_rfl, le_rfl, ?_⟩
      have hnonneg : 0 ≤ placed (digits, places + 1) := by
        unfold placed
        positivity
      exact mul_le_of_le_one_left hnonneg (pow_le_one₀ (by norm_num) (by norm_num))
    · rename_i hlong
      obtain ⟨hdigits, hplaces, hle⟩ := ih (dropPlace digits)
      have hlong' : (2 : ℚ) ^ 52 ≤ digits := by exact_mod_cast not_lt.mp hlong
      have hdrop : (1 - 4 / 2 ^ 52) * (digits / 10 : ℚ) ≤ dropPlace digits := by
        refine le_trans ?_ (le_dropPlace digits)
        linarith
      refine ⟨hdigits.trans (dropPlace_le digits), by omega, le_trans ?_ hle⟩
      calc (1 - 4 / 2 ^ 52) ^ (places + 1) * placed (digits, places + 1)
          = (1 - 4 / 2 ^ 52) ^ places * ((1 - 4 / 2 ^ 52) * (digits / 10) / 10 ^ places) := by
            unfold placed
            rw [pow_succ, pow_succ _ places]
            field_simp
        _ ≤ (1 - 4 / 2 ^ 52) ^ places * placed (dropPlace digits, places) := by
            unfold placed
            gcongr

theorem cutZeros_bounds (digits places : ℕ) :
    (cutZeros digits places).1 ≤ digits ∧ (cutZeros digits places).2 ≤ places ∧
      placed (cutZeros digits places) = placed (digits, places) := by
  induction places generalizing digits with
  | zero => simp [cutZeros]
  | succ places ih =>
    rw [cutZeros]
    split
    · rename_i hzero
      obtain ⟨hdigits, hplaces, heq⟩ := ih (digits / 10)
      refine ⟨hdigits.trans (Nat.div_le_self _ _), by omega, heq.trans ?_⟩
      obtain ⟨n, rfl⟩ := Nat.dvd_of_mod_eq_zero hzero
      unfold placed
      rw [Nat.mul_div_cancel_left _ (by norm_num)]
      push_cast
      rw [pow_succ']
      field_simp
    · exact ⟨le_rfl, le_rfl, rfl⟩

/-! ## The decimal -/

theorem exists_make? {digits places : ℕ} (h : digits < unitLimit) (hplaces : places ≤ maxScale) :
    ∃ d, make? false digits places = some d ∧ d.toRat = placed (digits, places) := by
  refine ⟨⟨digits, places, by simpa using h, hplaces⟩, ?_, ?_⟩
  · exact make?_eq_some_iff.mpr ⟨h, hplaces, rfl, rfl⟩
  · simp [toRat, placed]

/-- A magnitude without tens becomes a decimal, without the places that are too many. -/
theorem exists_settle {a : Scaled} (h : a.digits < unitLimit) (htens : a.tens ≤ 0) :
    ∃ d, settle false a = some d ∧
      (1 - 4 / 2 ^ 52) ^ 28 * (a.toRat - 1 / 10 ^ 28) ≤ d.toRat := by
  have hself : a.toRat = placed (a.digits, (-a.tens).toNat) := by
    unfold Scaled.toRat placed
    rw [div_eq_mul_inv, ← zpow_natCast, ← zpow_neg]
    congr 2
    omega
  have hnonneg : (0 : ℚ) ≤ (1 - 4 / 2 ^ 52) ^ 28 := by norm_num
  have hfactor : (1 - 4 / 2 ^ 52 : ℚ) ^ 28 ≤ 1 := by norm_num
  unfold settle
  split
  · rename_i hwhole
    have hzero : a.tens = 0 := le_antisymm htens hwhole
    obtain ⟨d, hd, hval⟩ := exists_make? h (Nat.zero_le maxScale)
    rw [hzero]
    refine ⟨d, hd, ?_⟩
    have hpos : 0 ≤ placed (a.digits, 0) := by
      unfold placed
      positivity
    rw [hself, hval, hzero]
    calc (1 - 4 / 2 ^ 52) ^ 28 * (placed (a.digits, 0) - 1 / 10 ^ 28)
        ≤ (1 - 4 / 2 ^ 52) ^ 28 * placed (a.digits, 0) := by
          gcongr
          norm_num
      _ ≤ placed (a.digits, 0) := mul_le_of_le_one_left hpos hfactor
  · rcases hcut₁ : cutPlaces a.digits (-a.tens).toNat with ⟨digits₁, places₁⟩
    rcases hcut₂ : cutPrecision digits₁ places₁ with ⟨digits₂, places₂⟩
    obtain ⟨hdigits₁, hplaces₁⟩ := cutPlaces_bounds a.digits (-a.tens).toNat
    have hle₁ := le_cutPlaces a.digits (-a.tens).toNat
    obtain ⟨hdigits₂, hplaces₂, hle₂⟩ := cutPrecision_bounds digits₁ places₁
    obtain ⟨hdigits₃, hplaces₃, heq⟩ := cutZeros_bounds digits₂ places₂
    rw [hcut₁] at hdigits₁ hplaces₁ hle₁
    rw [hcut₂] at hdigits₂ hplaces₂ hle₂
    dsimp only at hdigits₁ hplaces₁ hdigits₂ hplaces₂
    have hunits : (cutZeros digits₂ places₂).1 < unitLimit := by omega
    have hscale : (cutZeros digits₂ places₂).2 ≤ maxScale := by omega
    obtain ⟨d, hd, hval⟩ := exists_make? hunits hscale
    dsimp only
    rw [hcut₂]
    refine ⟨d, hd, ?_⟩
    rw [hself, hval, heq]
    have hfewer : (1 - 4 / 2 ^ 52 : ℚ) ^ 28 ≤ (1 - 4 / 2 ^ 52) ^ places₁ :=
      pow_le_pow_of_le_one (by norm_num) (by norm_num) hplaces₁
    have hpos : 0 ≤ placed (digits₁, places₁) := by
      unfold placed
      positivity
    calc (1 - 4 / 2 ^ 52) ^ 28 * (placed (a.digits, (-a.tens).toNat) - 1 / 10 ^ 28)
        ≤ (1 - 4 / 2 ^ 52) ^ 28 * placed (digits₁, places₁) := by gcongr
      _ ≤ (1 - 4 / 2 ^ 52) ^ places₁ * placed (digits₁, places₁) := by gcongr
      _ ≤ placed (digits₂, places₂) := hle₂

theorem ofBinary?_of_whole (hfloat : b.IsFloat) (hnonzero : b.significand ≠ 0)
    (h : 0 ≤ b.exponent) :
    ofBinary? b = if b.significand * 2 ^ b.exponent.toNat < unitLimit then
      settle b.negative ⟨b.significand * 2 ^ b.exponent.toNat, 0⟩ else none := by
  have hsmall : b.significand < unitLimit := hfloat.significand_lt.trans (by decide)
  have hcount : (b.exponent.toNat : ℤ) = b.exponent := Int.toNat_of_nonneg h
  have hfives := overFives_eq b.exponent.toNat hsmall
  rw [hcount] at hfives
  unfold ofBinary?
  rw [if_neg hnonzero, if_neg (not_lt.mpr h), hfives]
  split <;> rfl

theorem abs_of_whole (h : 0 ≤ b.exponent) :
    b.abs = ((b.significand * 2 ^ b.exponent.toNat : ℕ) : ℚ) := by
  have hexp : b.exponent = (b.exponent.toNat : ℤ) := (Int.toNat_of_nonneg h).symm
  unfold Binary.abs
  rw [hexp, zpow_natCast, Int.toNat_natCast]
  push_cast
  rfl

theorem abs_of_fraction (h : b.exponent < 0) :
    b.abs = Scaled.toRat ⟨b.significand, b.exponent⟩ * 5 ^ (-b.exponent).toNat := by
  have hexp : b.exponent = -((-b.exponent).toNat : ℤ) := by omega
  unfold Binary.abs Scaled.toRat
  generalize (-b.exponent).toNat = count at *
  dsimp only
  rw [hexp, zpow_neg, zpow_neg, zpow_natCast, zpow_natCast, show (10 : ℚ) = 2 * 5 by norm_num,
    mul_pow]
  field_simp

/-- The losses of all steps together are below those that are allowed for. -/
theorem short_le {q : ℚ} (hq : 0 ≤ q) {count : ℕ} (hcount : count ≤ 1074) :
    short q ≤ (1 - 4 / 2 ^ 52) ^ 28 * ((1 - 5 / 2 ^ 96) ^ count * q - 1 / 10 ^ 28) := by
  have hbernoulli : 1 + (count : ℚ) * (-5 / 2 ^ 96) ≤ (1 + -5 / 2 ^ 96) ^ count :=
    one_add_mul_le_pow (by norm_num) count
  have hcount' : (count : ℚ) ≤ 1074 := by exact_mod_cast hcount
  have hsteps : (1 - 1 / 2 ^ 80 : ℚ) ≤ (1 - 5 / 2 ^ 96) ^ count := by
    rw [show (1 - 5 / 2 ^ 96 : ℚ) = 1 + -5 / 2 ^ 96 by norm_num]
    linarith
  unfold short
  calc (1 - 1 / 10 ^ 12) * q - 1 / 10 ^ 28
      ≤ (1 - 4 / 2 ^ 52) ^ 28 * ((1 - 1 / 2 ^ 80) * q - 1 / 10 ^ 28) := by
        norm_num
        linarith
    _ ≤ (1 - 4 / 2 ^ 52) ^ 28 * ((1 - 5 / 2 ^ 96) ^ count * q - 1 / 10 ^ 28) := by gcongr

theorem exists_of_fraction (hfloat : b.IsFloat) (hsign : b.negative = false)
    (hnonzero : b.significand ≠ 0) (h : b.exponent < 0) :
    ∃ d, ofBinary? b = some d ∧ short b.abs ≤ d.toRat := by
  have hsmall : b.significand < unitLimit := hfloat.significand_lt.trans (by decide)
  have hcount : (-b.exponent).toNat ≤ 1074 := by
    have := hfloat.le_exponent
    omega
  obtain ⟨hdigits, htens, hle⟩ := timesFives_bounds (-b.exponent).toNat
    (a := ⟨b.significand, b.exponent⟩) hsmall
  rw [← abs_of_fraction h] at hle
  dsimp only at htens
  obtain ⟨d, hd, hle'⟩ := exists_settle hdigits (by omega)
  refine ⟨d, ?_, ?_⟩
  · rw [ofBinary?, if_neg hnonzero, if_pos h, hsign]
    exact hd
  · refine (short_le b.abs_nonneg hcount).trans (le_trans ?_ hle')
    gcongr

theorem exists_of_whole (hfloat : b.IsFloat) (hsign : b.negative = false)
    (hnonzero : b.significand ≠ 0) (h : 0 ≤ b.exponent) (hlt : b.abs < 2 ^ 96) :
    ∃ d, ofBinary? b = some d ∧ short b.abs ≤ d.toRat := by
  have habs := abs_of_whole h
  have hdigits : b.significand * 2 ^ b.exponent.toNat < unitLimit := by
    rw [habs] at hlt
    exact_mod_cast hlt
  obtain ⟨d, hd, hle⟩ :=
    exists_settle (a := ⟨b.significand * 2 ^ b.exponent.toNat, 0⟩) hdigits le_rfl
  refine ⟨d, ?_, ?_⟩
  · rw [ofBinary?_of_whole hfloat hnonzero h, if_pos hdigits, hsign]
    exact hd
  · have hself : Scaled.toRat ⟨b.significand * 2 ^ b.exponent.toNat, 0⟩ = b.abs := by
      rw [habs, Scaled.toRat, zpow_zero, mul_one]
    have hcut := short_le b.abs_nonneg (Nat.zero_le 1074)
    rw [pow_zero, one_mul, ← hself] at hcut
    rw [← hself]
    exact hcut.trans hle

/-- Below the limit, a number that is not negative has a decimal that is not much smaller. -/
theorem exists_ofBinary? (hfloat : b.IsFloat) (hsign : b.negative = false)
    (h : b.abs < 2 ^ 96) : ∃ d, ofBinary? b = some d ∧ short b.abs ≤ d.toRat := by
  by_cases hzero : b.significand = 0
  · refine ⟨zero, ?_, ?_⟩
    · rw [ofBinary?, if_pos hzero]
    · rw [toRat_zero, Binary.abs_eq_zero hzero]
      norm_num [short]
  · rcases lt_or_ge b.exponent 0 with hneg | hwhole
    · exact exists_of_fraction hfloat hsign hzero hneg
    · exact exists_of_whole hfloat hsign hzero hwhole h

/-- From the limit on, a number has no decimal. -/
theorem ofBinary?_eq_none (hfloat : b.IsFloat) (h : 2 ^ 96 ≤ b.abs) :
    ofBinary? b = none := by
  have hwhole : 0 ≤ b.exponent := by
    by_contra hneg
    have hpow : (2 : ℚ) ^ b.exponent ≤ 1 :=
      zpow_le_one_of_nonpos₀ (by norm_num) (not_le.mp hneg).le
    have hsig : (b.significand : ℚ) < 2 ^ 53 := by exact_mod_cast hfloat.significand_lt
    have hlt : b.abs < 2 ^ 96 := by
      unfold Binary.abs
      calc (b.significand : ℚ) * 2 ^ b.exponent ≤ b.significand * 1 := by gcongr
        _ < 2 ^ 96 := by linarith
    exact absurd h (not_le.mpr hlt)
  have hlarge : ¬ b.significand * 2 ^ b.exponent.toNat < unitLimit := by
    rw [abs_of_whole hwhole] at h
    exact not_lt.mpr (by exact_mod_cast h)
  have hnonzero : b.significand ≠ 0 := by
    intro hzero
    rw [hzero, zero_mul] at hlarge
    exact hlarge (by decide)
  rw [ofBinary?_of_whole hfloat hnonzero hwhole, if_neg hlarge]

/-! ## Floats -/

/-- Without a minus sign, no decimal below zero comes out. -/
theorem units_nonneg_of_make? {units scale : ℕ} {d : Decimal}
    (h : make? false units scale = some d) : 0 ≤ d.units := by
  rw [(make?_eq_some_iff.mp h).2.2.1]
  simp [signed]

theorem units_nonneg_of_settle {s : Scaled} {d : Decimal} (h : settle false s = some d) :
    0 ≤ d.units := by
  unfold settle at h
  split at h
  · obtain ⟨digits, -, hd⟩ := Option.bind_eq_some_iff.mp h
    exact units_nonneg_of_make? hd
  · exact units_nonneg_of_make? h

theorem units_nonneg_of_ofBinary? {d : Decimal} (hb : b.negative = false)
    (h : ofBinary? b = some d) : 0 ≤ d.units := by
  unfold ofBinary? at h
  rw [hb] at h
  split at h
  · cases h
    exact le_rfl
  · split at h
    · exact units_nonneg_of_settle h
    · obtain ⟨s, -, hd⟩ := Option.bind_eq_some_iff.mp h
      exact units_nonneg_of_settle hd

/-- A float that is not negative is charged as a decimal that is not negative. -/
theorem ofFloat_nonneg (hx : ¬ x < 0.0) : 0 ≤ (ofFloat x).toRat := by
  rw [toRat_nonneg_iff]
  unfold ofFloat
  cases hd : ofFloat? x with
  | none => exact le_rfl
  | some d =>
    unfold ofFloat? at hd
    split at hd
    · rename_i b hshape
      by_cases hneg : b.negative = true
      · -- Only a zero has a minus sign here.
        by_cases hzero : b.significand = 0
        · unfold ofBinary? at hd
          rw [if_pos hzero] at hd
          cases hd
          exact le_rfl
        · exact absurd (lt_zero_of_negative hshape hneg hzero) hx
      · exact units_nonneg_of_ofBinary? (Bool.not_eq_true _ ▸ hneg) hd
    · cases hd

/-- Below the limit, the decimal of an amount is not much smaller than the amount. -/
theorem short_le_ofFloat (h : isAmount x = true) (hlt : numberOf x < 2 ^ 96) :
    short (numberOf x) ≤ (ofFloat x).toRat := by
  obtain ⟨b, hb, hnumber, hsign | hzero⟩ := exists_of_isAmount h
  · rw [hnumber] at hlt ⊢
    obtain ⟨d, hd, hle⟩ := exists_ofBinary? (isFloat_of_ofFloat hb) hsign hlt
    have hx : ofFloat x = d := by
      unfold ofFloat ofFloat?
      rw [hb]
      dsimp only
      rw [hd, Option.getD_some]
    rw [hx]
    exact hle
  · have hx : ofFloat x = zero := by
      unfold ofFloat ofFloat?
      rw [hb]
      dsimp only
      rw [ofBinary?, if_pos hzero, Option.getD_some]
    rw [hx, hnumber, Binary.abs_eq_zero hzero, toRat_zero]
    norm_num [short]

/-- From the limit on, a float counts for nothing. -/
theorem ofFloat_eq_zero (h : 2 ^ 96 ≤ numberOf x) : ofFloat x = zero := by
  unfold numberOf at h
  unfold ofFloat ofFloat?
  cases hx : Shape.ofFloat x with
  | nan => rfl
  | infinity negative => rfl
  | finite b =>
    rw [hx] at h
    dsimp only at h ⊢
    have habs : 2 ^ 96 ≤ b.abs := by
      split at h
      · have := b.abs_nonneg
        linarith
      · exact h
    rw [ofBinary?_eq_none (isFloat_of_ofFloat hx) habs, Option.getD_none]

end Tariff.Decimal
