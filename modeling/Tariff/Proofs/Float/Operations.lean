import Tariff.Proofs.Float.Nearest

/-!
# Operations on floats round to the nearest float

An operation works out a significand with two more bits, one for the next binary place and one for
everything behind it. These bits say enough about the exact result to round it.

* `Locates`: what a significand and the two bits say about a number.
* `ofFloat_round`: rounding what stands for a number gives the float nearest to it.
* `ofFloat_mul`, `ofFloat_div`: products and quotients of floats.
* `ofFloat_ofScientific`: a float given by digits and a power of ten.
-/

namespace Tariff.Number

open Float.Model UnpackedFloat

variable {em : ExtendedMantissa} {v x : ℚ} {s : Sign} {m n : ℕ} {e t : ℤ} {acc : Accuracy}

/-- What a significand, the next binary place and a bit for all places behind it say about `x`. -/
def Locates (em : ExtendedMantissa) (x : ℚ) : Prop :=
  match em.roundBit, em.stickyBit with
  | false, false => x = em.mantissa
  | false, true => em.mantissa < x ∧ x < em.mantissa + 1 / 2
  | true, false => x = em.mantissa + 1 / 2
  | true, true => em.mantissa + 1 / 2 < x ∧ x < em.mantissa + 1

theorem Locates.bounds (h : Locates em x) : em.mantissa ≤ x ∧ x < em.mantissa + 1 := by
  obtain ⟨m, r, k⟩ := em
  cases r <;> cases k <;> simp only [Locates] at h <;> constructor <;> linarith

theorem Locates.floor_eq (h : Locates em x) : ⌊x⌋₊ = em.mantissa := by
  obtain ⟨hle, hlt⟩ := h.bounds
  exact (Nat.floor_eq_iff (le_trans (by positivity) hle)).mpr ⟨hle, hlt⟩

theorem Locates.halfEven_eq (h : Locates em x) : halfEven x = em.roundedMantissa := by
  have hfloor := h.floor_eq
  unfold halfEven
  rw [hfloor]
  obtain ⟨m, r, k⟩ := em
  cases r <;> cases k <;> simp only [Locates] at h
  · rw [if_pos (by linarith)]
    rfl
  · rw [if_pos (by linarith)]
    rfl
  · rw [if_neg (by linarith), if_neg (by linarith)]
    rfl
  · rw [if_neg (by linarith), if_pos (by linarith)]
    rfl

/-- A place less halves the number. -/
theorem Locates.half (h : Locates em x) : Locates em.shiftRightOne (x / 2) := by
  obtain ⟨m, r, k⟩ := em
  have hdiv : (m : ℚ) = 2 * (m / 2 : ℕ) + (m % 2 : ℕ) := by exact_mod_cast (Nat.div_add_mod m 2).symm
  rcases Nat.mod_two_eq_zero_or_one m with hodd | hodd <;> rw [hodd] at hdiv <;>
    cases r <;> cases k <;>
    simp only [Locates, ExtendedMantissa.shiftRightOne, hodd, bne_self_eq_false, Bool.or_false,
      Bool.or_true, Bool.or_self, show ((1 : ℕ) != 0) = true from rfl] at h ⊢ <;>
    norm_num at hdiv <;> first | linarith | (constructor <;> linarith)

theorem Locates.shift (h : Locates em x) (k : ℕ) : Locates (em >>> k) (x / 2 ^ k) := by
  change Locates (k.repeat ExtendedMantissa.shiftRightOne em) (x / 2 ^ k)
  induction k with
  | zero =>
    rw [pow_zero, div_one]
    exact h
  | succ k ih =>
    rw [pow_succ, ← div_div]
    exact ih.half

theorem locates_exact (m : ℕ) :
    Locates (ExtendedMantissa.ofMantissaAndAccuracy m .exact) m := rfl

/-- A quotient of natural numbers with the place that its remainder has. -/
theorem locates_quotient (num : ℕ) {den : ℕ} (hden : 0 < den) :
    Locates (ExtendedMantissa.ofMantissaAndAccuracy (num / den)
      (accuracyOfFraction (num % den) den)) ((num : ℚ) / den) := by
  have hd : (0 : ℚ) < den := by exact_mod_cast hden
  have hq : (num : ℚ) / den = (num / den : ℕ) + (num % den : ℕ) / den := by
    rw [eq_comm, add_div' _ _ _ hd.ne', div_left_inj' hd.ne']
    exact_mod_cast Nat.div_add_mod' num den
  have hlt : ((num % den : ℕ) : ℚ) / den < 1 := by
    rw [div_lt_one hd]
    exact_mod_cast Nat.mod_lt num hden
  rw [hq]
  unfold accuracyOfFraction
  split
  · rename_i hzero
    rw [hzero, Nat.cast_zero, zero_div, add_zero]
    exact locates_exact _
  · rename_i hne
    have hpos : (0 : ℚ) < (num % den : ℕ) / den := by
      have : (0 : ℚ) < (num % den : ℕ) := by exact_mod_cast Nat.pos_of_ne_zero hne
      positivity
    have hhalf : (num % den : ℕ) / (den : ℚ) = (2 * (num % den) : ℕ) / den / 2 := by
      push_cast
      ring
    rcases hcmp : compare (2 * (num % den)) den with _ | _ | _ <;>
      simp only [ExtendedMantissa.ofMantissaAndAccuracy, Locates]
    · have : (2 * (num % den) : ℕ) / (den : ℚ) < 1 := by
        rw [div_lt_one hd]
        exact_mod_cast Nat.compare_eq_lt.mp hcmp
      constructor <;> linarith
    · have : (2 * (num % den) : ℕ) / (den : ℚ) = 1 := by
        rw [div_eq_one_iff_eq hd.ne']
        exact_mod_cast Nat.compare_eq_eq.mp hcmp
      linarith
    · have : 1 < (2 * (num % den) : ℕ) / (den : ℚ) := by
        rw [one_lt_div hd]
        exact_mod_cast Nat.compare_eq_gt.mp hcmp
      constructor <;> linarith

/-! ## Rounding -/

theorem targetExponent_eq (m : ℕ) (e : ℤ) :
    Format.binary64.targetExponent (totalExponent m e) = max (m.log2 + e - 52) (-1074) := by
  have hbits : (Format.binary64.mantissaBits : ℤ) = 53 := rfl
  have hmin : Format.binary64.minExponent = -1074 := rfl
  unfold Format.targetExponent totalExponent
  rw [hbits, hmin]
  omega

/-- The shift to a target that is not below leaves the number as it is. -/
theorem locates_shift (h : Locates (ExtendedMantissa.ofMantissaAndAccuracy m acc) (v / 2 ^ e))
    (ht : e ≤ t) : Locates (shiftToExponent m e acc t).1 (v / 2 ^ t) := by
  have hshift := h.shift (t - e).toNat
  have hpow : (2 : ℚ) ^ e * 2 ^ (t - e).toNat = 2 ^ t := by
    rw [← zpow_natCast, ← zpow_add₀ (by norm_num)]
    congr 1
    omega
  rw [div_div, hpow] at hshift
  exact hshift

/-- Where the whole part of `v` in units of `2 ^ e` is known, so is its grid. -/
theorem targetExponent_eq_gridExponent (hv : 0 ≤ v) (hle : m ≤ v / 2 ^ e) (hlt : v / 2 ^ e < m + 1)
    (hm : m = 0 → e ≤ -1074) :
    Format.binary64.targetExponent (totalExponent m e) = gridExponent v := by
  have hpow : (0 : ℚ) < 2 ^ e := by positivity
  rw [le_div_iff₀ hpow] at hle
  rw [div_lt_iff₀ hpow] at hlt
  rw [targetExponent_eq]
  rcases Nat.eq_zero_or_pos m with rfl | hpos
  · have hsmall : v < 2 ^ (-1074 : ℤ) := by
      refine hlt.trans_le ?_
      rw [Nat.cast_zero, zero_add, one_mul]
      exact zpow_le_zpow_right₀ (by norm_num) (hm rfl)
    rw [gridExponent_of_lt hv (hsmall.trans_le (zpow_le_zpow_right₀ (by norm_num) (by norm_num)))]
    have := hm rfl
    rw [Nat.log2_zero]
    omega
  · rw [gridExponent_eq hpos hle hlt]

/-- The second shift halves a significand that rounding made too long, and does nothing else. -/
theorem shift_settled (negative : Bool) (hm : m ≤ 2 ^ 53) (ht : -1074 ≤ t) :
    (shiftToTargetExponent Format.binary64 m t .exact).1.mantissa =
        (settled negative m t).significand ∧
      (shiftToTargetExponent Format.binary64 m t .exact).2 = (settled negative m t).exponent := by
  unfold shiftToTargetExponent settled
  rw [targetExponent_eq]
  rcases hm.eq_or_lt with rfl | hlt
  · have hlog : (2 ^ 53 : ℕ).log2 = 53 := by decide
    have htarget : max (((2 ^ 53 : ℕ).log2 : ℤ) + t - 52) (-1074) = t + 1 := by
      rw [hlog]
      omega
    have hone : (t + 1 - t).toNat = 1 := by omega
    unfold shiftToExponent
    simp only [htarget, if_pos, hone]
    exact ⟨rfl, rfl⟩
  · have hlog : m.log2 ≤ 52 := by
      rcases Nat.eq_zero_or_pos m with rfl | hpos
      · decide
      · exact Nat.le_of_lt_succ ((Nat.log2_lt hpos.ne').mpr hlt)
    have hnone : (max ((m.log2 : ℤ) + t - 52) (-1074) - t).toNat = 0 := by omega
    unfold shiftToExponent
    simp only [if_neg hlt.ne, hnone]
    exact ⟨rfl, add_zero t⟩

/-- The shape of a packed number that is rounded already. -/
theorem ofFloat_pack_finite (hm : 0 < m) (hlt : m < 2 ^ 53) (he : -1074 ≤ e)
    (hnormal : 2 ^ 52 ≤ m ∨ e = -1074) :
    Shape.ofFloat ⟨Float.Model.pack (.finite s m e hm)⟩ =
      if e ≤ 971 then .finite ⟨isMinus s, m, e⟩ else .infinity (isMinus s) := by
  split
  · rename_i hle
    exact ofFloat_pack ⟨hlt, he, hle, hnormal⟩
  · rename_i hle
    have hpack : Float.Model.pack (.finite s m e hm) = Float.Model.pack (.infinity s) := by
      unfold Float.Model.pack
      simp only [pack_overflow hm (not_le.mp hle)]
      rfl
    rw [hpack]
    exact ofFloat_pack trivial

/-- Rounding what stands for a number gives the float nearest to it. -/
theorem ofFloat_round (hv : 0 ≤ v)
    (h : Locates (ExtendedMantissa.ofMantissaAndAccuracy m acc) (v / 2 ^ e))
    (he : e ≤ gridExponent v) (hm : m = 0 → e ≤ -1074) :
    Shape.ofFloat ⟨Float.Model.pack (roundWithAccuracy Format.binary64 s m e acc)⟩ =
      nearest (isMinus s) v := by
  have hmantissa : (ExtendedMantissa.ofMantissaAndAccuracy m acc).mantissa = m := by
    unfold ExtendedMantissa.ofMantissaAndAccuracy
    split <;> rfl
  obtain ⟨hle, hlt⟩ := h.bounds
  rw [hmantissa] at hle hlt
  have htarget := targetExponent_eq_gridExponent hv hle hlt hm
  have hunits : (shiftToTargetExponent Format.binary64 m e acc).1.roundedMantissa = gridUnits v := by
    unfold shiftToTargetExponent
    rw [htarget]
    exact (locates_shift h he).halfEven_eq.symm
  have hexponent : (shiftToTargetExponent Format.binary64 m e acc).2 = gridExponent v := by
    unfold shiftToTargetExponent
    rw [htarget]
    show e + (gridExponent v - e).toNat = gridExponent v
    omega
  obtain ⟨hsig, hexp⟩ := shift_settled (isMinus s) (gridUnits_le hv) (t := gridExponent v)
    le_gridExponent
  obtain ⟨hlt', hle', hnormal⟩ := settled_bounds (isMinus s) hv
  unfold roundWithAccuracy
  dsimp only
  rw [hunits, hexponent]
  split
  · rename_i hzero
    rw [hsig] at hzero
    have hb : settled (isMinus s) (gridUnits v) (gridExponent v) = ⟨isMinus s, 0, -1074⟩ := by
      rw [← settled_eq_mk, hzero, hnormal.resolve_left (by omega)]
    unfold nearest
    rw [hb]
    exact ofFloat_pack trivial
  · rename_i hne
    rw [ofFloat_pack_finite _ (hsig ▸ hlt') (hexp ▸ hle') (hsig ▸ hexp ▸ hnormal), hsig, hexp,
      settled_eq_mk]
    rfl

/-! ## Products and quotients -/

theorem isMinus_mul (s t : Sign) : isMinus (s * t) = (isMinus s != isMinus t) := by
  cases s <;> cases t <;> rfl

theorem isMinus_div (s t : Sign) : isMinus (s / t) = (isMinus s != isMinus t) := by
  cases s <;> cases t <;> rfl

theorem ofFloat_pack_zero (s : Sign) :
    Shape.ofFloat ⟨Float.Model.pack (.zero s)⟩ = nearest (isMinus s) 0 := by
  rw [nearest_zero]
  exact ofFloat_pack trivial

/-- Significands of 53 bits have a product that is no finer than its grid. -/
theorem le_gridExponent_mul {k : ℤ} (hm : 0 < m) (hn : 0 < n)
    (h : 2 ^ 52 ≤ m ∨ 2 ^ 52 ≤ n ∨ k ≤ -1074) :
    k ≤ gridExponent ((m * n : ℕ) * 2 ^ k) := by
  have hpos : 0 < m * n := Nat.mul_pos hm hn
  have hlt : ((m * n : ℕ) : ℚ) * 2 ^ k < ((m * n : ℕ) + 1) * 2 ^ k := by
    gcongr
    exact lt_add_one _
  rw [gridExponent_eq hpos le_rfl hlt]
  rcases h with h | h | h
  · have := (Nat.le_log2 hpos.ne').mpr (h.trans (Nat.le_mul_of_pos_right m hn))
    omega
  · have := (Nat.le_log2 hpos.ne').mpr (h.trans (Nat.le_mul_of_pos_left n hm))
    omega
  · omega

/-- A natural number times a power of two, rounded where it is no finer than its grid. -/
theorem ofFloat_round_exact (he : e ≤ gridExponent (m * 2 ^ e)) (hm : 0 < m) :
    Shape.ofFloat ⟨Float.Model.pack (roundWithAccuracy Format.binary64 s m e .exact)⟩ =
      nearest (isMinus s) (m * 2 ^ e) := by
  refine ofFloat_round (by positivity) ?_ he (fun hzero => absurd hzero hm.ne')
  rw [mul_div_cancel_right₀ _ (by positivity)]
  exact locates_exact m

/-- A product is the float nearest to the exact one. -/
theorem ofFloat_mul {x y : Float} {a b : Binary} (hx : Shape.ofFloat x = .finite a)
    (hy : Shape.ofFloat y = .finite b) :
    Shape.ofFloat (x * y) = nearest (a.negative != b.negative) (a.abs * b.abs) := by
  have hfa := isFloat_of_ofFloat hx
  have hfb := isFloat_of_ofFloat hy
  have hmul : x * y = ⟨Float.Model.pack (UnpackedFloat.mul Format.binary64 x.toModel.unpack
      y.toModel.unpack)⟩ := rfl
  rw [hmul]
  rw [ofFloat_eq_shape] at hx hy
  cases hu : x.toModel.unpack <;> rw [hu] at hx <;>
    simp only [shape, Shape.finite.injEq, reduceCtorEq] at hx <;>
  cases hw : y.toModel.unpack <;> rw [hw] at hy <;>
    simp only [shape, Shape.finite.injEq, reduceCtorEq] at hy <;>
  subst hx hy <;> unfold UnpackedFloat.mul <;> dsimp only <;> rw [← isMinus_mul]
  case zero.zero => simpa [Binary.abs] using ofFloat_pack_zero _
  case zero.finite => simpa [Binary.abs] using ofFloat_pack_zero _
  case finite.zero => simpa [Binary.abs] using ofFloat_pack_zero _
  case finite.finite s m e hm t n f hn =>
    have hexp : e + f ≤ gridExponent ((m * n : ℕ) * 2 ^ (e + f)) := by
      refine le_gridExponent_mul hm hn ?_
      rcases hfa.normal with h | h
      · exact .inl h
      · rcases hfb.normal with h' | h'
        · exact .inr (.inl h')
        · dsimp only at h h'
          exact .inr (.inr (by omega))
    have hv : (Binary.mk (isMinus s) m e).abs * (Binary.mk (isMinus t) n f).abs =
        (m * n : ℕ) * 2 ^ (e + f) := by
      unfold Binary.abs
      rw [zpow_add₀ (by norm_num)]
      push_cast
      ring
    rw [hv]
    exact ofFloat_round_exact hexp (Nat.mul_pos hm hn)

/-- A quotient of significands is at least half of the quotient of their leading bits. -/
theorem zpow_le_quotient {f : ℤ} (hm : 0 < m) (hn : 0 < n) :
    (2 : ℚ) ^ ((m.log2 + e) - (n.log2 + f) - 1 : ℤ) ≤ (m * 2 ^ e) / (n * 2 ^ f) := by
  have hm' : ((2 ^ m.log2 : ℕ) : ℚ) ≤ m := by exact_mod_cast Nat.log2_self_le hm.ne'
  have hn' : (n : ℚ) ≤ (2 ^ (n.log2 + 1) : ℕ) := by exact_mod_cast (Nat.lt_log2_self (n := n)).le
  have hnpos : (0 : ℚ) < n := by exact_mod_cast hn
  calc (2 : ℚ) ^ ((m.log2 + e) - (n.log2 + f) - 1 : ℤ)
      = ((2 ^ m.log2 : ℕ) * 2 ^ e) / ((2 ^ (n.log2 + 1) : ℕ) * 2 ^ f) := by
        push_cast
        rw [eq_div_iff (by positivity), ← zpow_natCast, ← zpow_natCast, ← zpow_add₀ (by norm_num),
          ← zpow_add₀ (by norm_num), ← zpow_add₀ (by norm_num)]
        congr 1
        push_cast
        ring
    _ ≤ (m * 2 ^ e) / (n * 2 ^ f) := by gcongr

/-- The digits that a division works out, rounded. -/
theorem ofFloat_round_divCore {f : ℤ} (hm : 0 < m) (hn : 0 < n) :
    Shape.ofFloat ⟨Float.Model.pack (roundWithAccuracy Format.binary64 s
      (divCore Format.binary64 m e n f).1 (divCore Format.binary64 m e n f).2.1
      (divCore Format.binary64 m e n f).2.2)⟩ =
      nearest (isMinus s) ((m * 2 ^ e) / (n * 2 ^ f)) := by
  have htarget : Format.binary64.targetExponent (totalExponent m e - totalExponent n f) =
      max ((m.log2 + e) - (n.log2 + f) - 53) (-1074) := by
    have hbits : (Format.binary64.mantissaBits : ℤ) = 53 := rfl
    have hmin : Format.binary64.minExponent = -1074 := rfl
    unfold Format.targetExponent totalExponent
    rw [hbits, hmin]
    omega
  have hlow := zpow_le_quotient (e := e) (f := f) hm hn
  have hnpos : (0 : ℚ) < n := by exact_mod_cast hn
  set v : ℚ := (m * 2 ^ e) / (n * 2 ^ f) with hv
  unfold divCore
  rw [htarget]
  dsimp only
  set t := min (e - f) (max ((m.log2 + e) - (n.log2 + f) - 53) (-1074)) with ht
  have hquotient : v / 2 ^ t = ((m <<< (e - f - t).toNat : ℕ) : ℚ) / n := by
    have hpow : (2 : ℚ) ^ e = 2 ^ (e - f - t).toNat * 2 ^ f * 2 ^ t := by
      rw [← zpow_natCast, ← zpow_add₀ (by norm_num), ← zpow_add₀ (by norm_num)]
      congr 1
      omega
    rw [hv, hpow, Nat.shiftLeft_eq]
    push_cast
    field_simp
  have hlocates := locates_quotient (m <<< (e - f - t).toNat) hn
  rw [← hquotient] at hlocates
  refine ofFloat_round (by positivity) hlocates ?_ ?_
  · have := le_gridExponent_of_le hlow
    omega
  · -- A quotient that starts with no bit is far below the least exponent.
    intro hzero
    by_contra! hlarge
    have hsmall : v < 2 ^ t := by
      rw [← div_lt_one (by positivity), hquotient, div_lt_one hnpos]
      exact_mod_cast (Nat.div_eq_zero_iff_lt hn).mp hzero
    have hexp := (zpow_lt_zpow_iff_right₀ (by norm_num)).mp (hlow.trans_lt hsmall)
    omega

/-- A quotient is the float nearest to the exact one. -/
theorem ofFloat_div {x y : Float} {a b : Binary} (hx : Shape.ofFloat x = .finite a)
    (hy : Shape.ofFloat y = .finite b) (hb : b.significand ≠ 0) :
    Shape.ofFloat (x / y) = nearest (a.negative != b.negative) (a.abs / b.abs) := by
  have hdiv : x / y = ⟨Float.Model.pack (UnpackedFloat.div Format.binary64 x.toModel.unpack
      y.toModel.unpack)⟩ := rfl
  rw [hdiv]
  rw [ofFloat_eq_shape] at hx hy
  cases hu : x.toModel.unpack <;> rw [hu] at hx <;>
    simp only [shape, Shape.finite.injEq, reduceCtorEq] at hx <;>
  cases hw : y.toModel.unpack <;> rw [hw] at hy <;>
    simp only [shape, Shape.finite.injEq, reduceCtorEq] at hy <;>
  subst hx hy <;> unfold UnpackedFloat.div <;> dsimp only <;> rw [← isMinus_div]
  case zero.zero => exact absurd rfl hb
  case finite.zero => exact absurd rfl hb
  case zero.finite => simpa [Binary.abs] using ofFloat_pack_zero _
  case finite.finite s m e hm t n f hn => exact ofFloat_round_divCore hm hn

/-! ## Floats of digits -/

/-- A natural number is turned into the float nearest to it. -/
theorem ofFloat_ofNat (n : ℕ) : Shape.ofFloat ⟨Float.Model.ofNat n⟩ = nearest false n := by
  rcases Nat.eq_zero_or_pos n with rfl | hpos
  · rw [Nat.cast_zero]
    exact ofFloat_pack_zero .positive
  · have hround : Float.Model.ofNat n =
        Float.Model.pack (UnpackedFloat.round Format.binary64 .positive n 0) := by
      unfold Float.Model.ofNat UnpackedFloat.ofNat UnpackedFloat.ofInt UnpackedFloat.normalize
      rw [show compare (n : ℤ) 0 = .gt from Int.compare_eq_gt.mpr (by exact_mod_cast hpos)]
      rfl
    rw [hround]
    unfold UnpackedFloat.round decreaseExponent
    rw [targetExponent_eq]
    dsimp only
    set k := (0 - max ((n.log2 : ℤ) + 0 - 52) (-1074)).toNat with hk
    have hgrid : gridExponent (n : ℚ) = max ((n.log2 : ℤ) + 0 - 52) (-1074) :=
      gridExponent_eq hpos (by simp) (by simp)
    refine ofFloat_round (by positivity) ?_ (by omega) (fun hzero => ?_)
    · have hunits : (n : ℚ) / 2 ^ (0 - (k : ℤ)) = (n <<< k : ℕ) := by
        rw [Nat.shiftLeft_eq, zero_sub, zpow_neg, zpow_natCast, div_inv_eq_mul]
        push_cast
        rfl
      rw [hunits]
      exact locates_exact _
    · rw [Nat.shiftLeft_eq] at hzero
      exact absurd hzero (Nat.mul_pos hpos (by positivity)).ne'

/-- A natural number of 53 bits is a float. -/
theorem nearest_natCast (h : n < 2 ^ 53) :
    ∃ b, nearest false n = .finite b ∧ b.negative = false ∧ b.abs = n := by
  rcases Nat.eq_zero_or_pos n with rfl | hpos
  · refine ⟨⟨false, 0, -1074⟩, ?_, rfl, ?_⟩
    · rw [Nat.cast_zero, nearest_zero]
    · unfold Binary.abs
      simp
  · have hlog : n.log2 ≤ 52 := Nat.le_of_lt_succ ((Nat.log2_lt hpos.ne').mpr h)
    have hle : 2 ^ n.log2 * 2 ^ (52 - n.log2) ≤ n * 2 ^ (52 - n.log2) :=
      Nat.mul_le_mul_right _ (Nat.log2_self_le hpos.ne')
    have hlt : n * 2 ^ (52 - n.log2) < 2 ^ (n.log2 + 1) * 2 ^ (52 - n.log2) :=
      Nat.mul_lt_mul_of_pos_right Nat.lt_log2_self (by positivity)
    rw [← pow_add, show n.log2 + (52 - n.log2) = 52 by omega] at hle
    rw [← pow_add, show n.log2 + 1 + (52 - n.log2) = 53 by omega] at hlt
    have habs : (Binary.mk false (n * 2 ^ (52 - n.log2)) ((n.log2 : ℤ) - 52)).abs = n := by
      unfold Binary.abs
      push_cast
      rw [mul_assoc, ← zpow_natCast, ← zpow_add₀ (by norm_num),
        show ((52 - n.log2 : ℕ) : ℤ) + ((n.log2 : ℤ) - 52) = 0 by omega, zpow_zero, mul_one]
    refine ⟨_, ?_, rfl, habs⟩
    rw [← habs]
    exact nearest_abs ⟨hlt, by dsimp only; omega, by dsimp only; omega, .inl hle⟩

/-- The powers of ten that are floats are tabled as such. -/
theorem ofFloat_power {k : ℕ} (hk : k < Float.exactlyRepresentablePowersOfTen.size) :
    ∃ b, Shape.ofFloat Float.exactlyRepresentablePowersOfTen[k] = .finite b ∧
      b.negative = false ∧ b.abs = 10 ^ k := by
  have htable : ∀ k : Fin 23, (match Shape.ofFloat Float.exactlyRepresentablePowersOfTen[k] with
      | .finite b => !b.negative && (b.scaled 0).1 == 10 ^ k.val * (b.scaled 0).2
      | _ => false) = true := by decide +kernel
  have h := htable ⟨k, hk⟩
  split at h
  · rename_i b hb
    rw [Bool.and_eq_true, Bool.not_eq_true', beq_iff_eq] at h
    have hden : ((b.scaled 0).2 : ℚ) ≠ 0 := by exact_mod_cast (b.scaled_den_pos 0).ne'
    refine ⟨b, hb, h.1, ?_⟩
    have hscaled := b.abs_mul_zpow 0
    rw [h.2, zpow_zero, mul_one, Nat.cast_mul, mul_div_cancel_right₀ _ hden] at hscaled
    rw [hscaled]
    push_cast
    rfl
  · cases h

theorem natCast_toUInt64 {k : ℕ} (hk : k < 2 ^ 53) : k.toUInt64.toFloat = ⟨Float.Model.ofNat k⟩ := by
  have htoNat : k.toUInt64.toNat = k := by
    rw [UInt64.toNat_ofNat']
    exact Nat.mod_eq_of_lt (by omega)
  have hdef : k.toUInt64.toFloat = ⟨Float.Model.ofNat k.toUInt64.toNat⟩ := rfl
  rw [hdef, htoNat]

/-- Small digits and small powers of ten are floats themselves, so that one operation rounds. -/
theorem ofFloat_ofScientific_fast {d k : ℕ} (hd : d < 2 ^ 53) (hk : k ≤ 22) (negative : Bool) :
    Shape.ofFloat (Float.ofScientific d negative k) =
      nearest false (d * 10 ^ (if negative then -(k : ℤ) else k)) := by
  have hk' : k < Float.exactlyRepresentablePowersOfTen.size := Nat.lt_succ_of_le hk
  obtain ⟨a, ha, hasign, haabs⟩ := nearest_natCast hd
  obtain ⟨b, hb, hbsign, hbabs⟩ := ofFloat_power hk'
  have hx : Shape.ofFloat d.toUInt64.toFloat = .finite a := by
    rw [natCast_toUInt64 hd, ofFloat_ofNat, ha]
  unfold Float.ofScientific
  rw [dif_pos ⟨hd, hk⟩]
  dsimp only
  split
  · have hne : b.significand ≠ 0 := by
      intro hzero
      unfold Binary.abs at hbabs
      rw [hzero, Nat.cast_zero, zero_mul] at hbabs
      exact absurd hbabs.symm (by positivity)
    rw [ofFloat_div hx hb hne, hasign, hbsign, haabs, hbabs, zpow_neg, zpow_natCast]
    rfl
  · rw [ofFloat_mul hx hb, hasign, hbsign, haabs, hbabs, zpow_natCast]
    rfl

/-- So large a power of ten is beyond every float. -/
theorem large_of_exponent {d : ℕ} {k : ℤ} (hd : 0 < d) (hk : 1024 ≤ k) :
    (2 : ℚ) ^ (1024 : ℤ) ≤ d * 10 ^ k := by
  have hd' : (1 : ℚ) ≤ d := by exact_mod_cast hd
  calc (2 : ℚ) ^ (1024 : ℤ) ≤ 10 ^ (1024 : ℤ) :=
        zpow_le_zpow_left₀ (by norm_num) (by norm_num) (by norm_num)
    _ ≤ 10 ^ k := zpow_le_zpow_right₀ (by norm_num) hk
    _ ≤ d * 10 ^ k := le_mul_of_one_le_left (by positivity) hd'

/-- So small a power of ten leaves less than half of the least float, however many the digits. -/
theorem small_of_exponent {d : ℕ} {k : ℤ} (hk : k < -(2048 + d.log2)) :
    (d : ℚ) * 10 ^ k < 2 ^ (-1075 : ℤ) := by
  have hd' : (d : ℚ) ≤ (2 ^ (d.log2 + 1) : ℕ) := by exact_mod_cast (Nat.lt_log2_self (n := d)).le
  have hten : (10 : ℚ) ^ k ≤ 2 ^ k := by
    obtain ⟨j, rfl⟩ : ∃ j : ℕ, k = -j := ⟨k.natAbs, by omega⟩
    rw [zpow_neg, zpow_neg, zpow_natCast, zpow_natCast]
    exact inv_anti₀ (by positivity) (pow_le_pow_left₀ (by norm_num) (by norm_num) j)
  calc (d : ℚ) * 10 ^ k ≤ (2 ^ (d.log2 + 1) : ℕ) * 2 ^ k := by gcongr
    _ = 2 ^ ((d.log2 : ℤ) + 1 + k) := by
        push_cast
        rw [← zpow_natCast, ← zpow_add₀ (by norm_num)]
        push_cast
        rfl
    _ < 2 ^ (-1075 : ℤ) := zpow_lt_zpow_right₀ (by norm_num) (by omega)

/-- Digits and a power of ten give the float nearest to the number that they stand for. -/
theorem ofFloat_modelOfScientific (d : ℕ) (k : ℤ) :
    Shape.ofFloat ⟨Float.Model.ofScientific d k⟩ = nearest false (d * 10 ^ k) := by
  unfold Float.Model.ofScientific UnpackedFloat.ofScientific
  split
  · rename_i hzero
    rw [hzero, Nat.cast_zero, zero_mul]
    exact ofFloat_pack_zero .positive
  · rename_i hne
    have hpos : 0 < d := Nat.pos_of_ne_zero hne
    split
    · rename_i hlarge
      rw [nearest_of_large (large_of_exponent hpos (le_trans (by norm_num) hlarge.le))]
      exact ofFloat_pack trivial
    · split
      · rename_i hsmall
        rw [nearest_of_small (by positivity) (small_of_exponent hsmall)]
        exact ofFloat_pack trivial
      · split
        · rename_i hnonneg
          have hbits : 2 ^ 52 ≤ d <<< 53 := by
            rw [Nat.shiftLeft_eq]
            exact le_trans (by norm_num) (Nat.le_mul_of_pos_left (2 ^ 53) hpos)
          obtain ⟨j, rfl⟩ := Int.eq_ofNat_of_zero_le hnonneg
          have hv : ((d <<< 53 * 10 ^ j : ℕ) : ℚ) * 2 ^ (-53 + 0 : ℤ) = d * 10 ^ (j : ℤ) := by
            rw [Nat.shiftLeft_eq]
            norm_num
            ring
          have hshift : 0 < d <<< 53 := lt_of_lt_of_le (by norm_num) hbits
          rw [← hv]
          exact ofFloat_round_exact (le_gridExponent_mul hshift (by positivity) (.inl hbits))
            (Nat.mul_pos hshift (by positivity))
        · rename_i hneg
          have hk : k = -((-k).toNat : ℤ) := by omega
          have hv : ((d : ℚ) * 2 ^ (0 : ℤ)) / ((10 ^ (-k).toNat : ℕ) * 2 ^ (0 : ℤ)) = d * 10 ^ k := by
            conv_rhs => rw [hk]
            rw [zpow_zero, mul_one, mul_one, zpow_neg, zpow_natCast, div_eq_mul_inv]
            push_cast
            rfl
          rw [← hv]
          exact ofFloat_round_divCore hpos (by positivity)

/-- The float of digits and a power of ten is the one nearest to the number they stand for. -/
theorem ofFloat_ofScientific (d : ℕ) (negative : Bool) (k : ℕ) :
    Shape.ofFloat (Float.ofScientific d negative k) =
      nearest false (d * 10 ^ (if negative then -(k : ℤ) else k)) := by
  by_cases hfast : d < 2 ^ 53 ∧ k ≤ 22
  · exact ofFloat_ofScientific_fast hfast.1 hfast.2 negative
  · unfold Float.ofScientific
    rw [dif_neg hfast, ofFloat_modelOfScientific]
    cases negative
    · rfl
    · rw [if_pos rfl, if_pos rfl, Int.negOfNat_eq]
      rfl

end Tariff.Number
