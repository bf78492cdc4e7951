import Mathlib
import Tariff.Number.Binary

/-!
# Floats and what they stand for

A float is its shape: what it stands for can be read off its bits, and no two floats stand for the
same.

* `Canonical`: the forms that an unpacked float can have.
* `unpack_pack`, `pack_unpack`: packing a canonical form and unpacking a float undo each other.
* `shape`, `ofFloat_eq_shape`: reading a float off its bits is unpacking it.
* `ofFloat_injective`: floats of one shape are equal.
* `zero_lt_of_not_negative`, `beq_zero_iff`: what is above zero, and what is equal to it.
-/

namespace Tariff.Number

open Float.Model UnpackedFloat

variable {u : UnpackedFloat} {s : Sign} {m : ℕ} {e : ℤ}

/-- The form of an unpacked float: a significand of 53 bits, shorter only at the least exponent. -/
def Canonical : UnpackedFloat → Prop
  | .finite _ m e _ => m < 2 ^ 53 ∧ -1074 ≤ e ∧ e ≤ 971 ∧ (2 ^ 52 ≤ m ∨ e = -1074)
  | _ => True

/-! ## The parts of a word -/

theorem toNat_packComponents (s : Sign) (e : BitVec 11) (m : BitVec 52) :
    (packComponents Format.binary64 s e m).toNat =
      s.toBitVec.toNat * 2 ^ 63 + e.toNat * 2 ^ 52 + m.toNat := by
  unfold packComponents
  rw [BitVec.toNat_append, BitVec.toNat_append, ← Nat.shiftLeft_add_eq_or_of_lt m.isLt,
    ← Nat.shiftLeft_add_eq_or_of_lt e.isLt, Nat.shiftLeft_eq, Nat.shiftLeft_eq]
  ring

/-- A word is put together from its parts. -/
theorem exists_parts (b : BitVec 64) :
    ∃ (s : Sign) (v : BitVec 11) (w : BitVec 52), b = packComponents Format.binary64 s v w :=
  ⟨_, _, _, (@packComponents_unpackSign_unpackExponent_unpackMantissa Format.binary64 b).symm⟩

theorem eq_allOnes_iff {v : BitVec 11} : v = -1#11 ↔ v.toNat = 2047 := by
  rw [← BitVec.toNat_inj]
  exact Iff.rfl

theorem eq_zero_iff {w : ℕ} {v : BitVec w} : v = 0#w ↔ v.toNat = 0 := by
  rw [← BitVec.toNat_inj, BitVec.toNat_zero]

theorem toNat_implicit (v : BitVec 52) : (1#1 ++ v).toNat = 2 ^ 52 + v.toNat := by
  rw [BitVec.toNat_append, ← Nat.shiftLeft_add_eq_or_of_lt v.isLt, Nat.shiftLeft_eq]
  simp

/-! ## Packing and unpacking -/

/-- Unpacking what was put together from parts. -/
theorem unpack_packComponents (s : Sign) (v : BitVec 11) (w : BitVec 52) :
    UnpackedFloat.unpack Format.binary64 (packComponents Format.binary64 s v w) =
      if v.toNat = 2047 then
        if w.toNat = 0 then .infinity s else .notANumber
      else if v.toNat = 0 then
        if h : w.toNat = 0 then .zero s else .finite s w.toNat (-1074) (Nat.pos_of_ne_zero h)
      else .finite s (2 ^ 52 + w.toNat) (v.toNat - 1075) (by omega) := by
  unfold UnpackedFloat.unpack
  simp only [unpackMantissa_packComponents, unpackExponent_packComponents,
    unpackSign_packComponents, Sign.ofBitVec_toBitVec, eq_allOnes_iff, toNat_implicit]
  split
  · simp only [eq_zero_iff]
  · simp only [eq_zero_iff]
    split
    · rename_i h
      split
      · rfl
      · congr 1
        rw [h]
        rfl
    · congr 1

theorem biased_eq (e : ℤ) : e + (Format.binary64.exponentBias : ℕ) + (52 : ℕ) = e + 1075 :=
  add_assoc e 1023 52

theorem pack_normal (hm : 0 < m) (h : 2 ^ 52 ≤ m) (h' : m < 2 ^ 53) (he : e ≤ 971) :
    UnpackedFloat.pack Format.binary64 (.finite s m e hm) =
      packComponents Format.binary64 s (.ofNat 11 (e + 1075).toNat) (.ofNat 52 m) := by
  have hlog : m.log2 = 52 := (Nat.log2_eq_iff hm.ne').mpr ⟨h, h'⟩
  unfold UnpackedFloat.pack
  simp only [biased_eq, hlog]
  rw [if_neg (by omega), if_pos (by rfl)]

theorem pack_subnormal (hm : 0 < m) (h : m < 2 ^ 52) :
    UnpackedFloat.pack Format.binary64 (.finite s m (-1074) hm) =
      packComponents Format.binary64 s 0#11 (.ofNat 52 m) := by
  have hlog : m.log2 < 52 := (Nat.log2_lt hm.ne').mpr h
  have hbits : Format.binary64.mantissaBits = 53 := rfl
  unfold UnpackedFloat.pack
  simp only [biased_eq, hbits]
  rw [if_neg (by decide), if_neg (by omega)]

/-- A number with too large an exponent is packed as an infinity. -/
theorem pack_overflow (hm : 0 < m) (he : 971 < e) :
    UnpackedFloat.pack Format.binary64 (.finite s m e hm) = packedInfinity Format.binary64 s := by
  unfold UnpackedFloat.pack
  simp only [biased_eq]
  rw [if_pos (by omega)]

theorem canonical_unpack (f : Float.Model) : Canonical f.unpack := by
  obtain ⟨s, v, w, hb⟩ := exists_parts f.toBits.toBitVec
  have hv : v.toNat < 2 ^ 11 := v.isLt
  have hw : w.toNat < 2 ^ 52 := w.isLt
  unfold Float.Model.unpack
  rw [hb, unpack_packComponents]
  split
  · split <;> trivial
  · split
    · split
      · trivial
      · exact ⟨by omega, le_rfl, by omega, .inr rfl⟩
    · exact ⟨by omega, by omega, by omega, .inl (by omega)⟩

/-- Unpacking undoes the packing of a canonical form. -/
theorem unpack_pack (h : Canonical u) : (Float.Model.pack u).unpack = u := by
  unfold Float.Model.pack Float.Model.unpack
  cases u with
  | infinity s => exact unpack_packComponents s _ _
  | notANumber => exact unpack_packComponents _ _ _
  | zero s => exact unpack_packComponents s _ _
  | finite s m e hm =>
    obtain ⟨hm', he, he', hform⟩ := h
    dsimp only
    by_cases hnormal : 2 ^ 52 ≤ m
    · have hv : (BitVec.ofNat 11 (e + 1075).toNat).toNat = (e + 1075).toNat := by
        rw [BitVec.toNat_ofNat]
        omega
      have hw : 2 ^ 52 + (BitVec.ofNat 52 m).toNat = m := by
        rw [BitVec.toNat_ofNat]
        omega
      rw [pack_normal hm hnormal hm' he', unpack_packComponents, hv, if_neg (by omega),
        if_neg (by omega)]
      simp only [hw]
      congr 1
      omega
    · obtain rfl : e = -1074 := hform.resolve_left hnormal
      have hw : (BitVec.ofNat 52 m).toNat = m := by
        rw [BitVec.toNat_ofNat]
        omega
      rw [pack_subnormal hm (by omega), unpack_packComponents, BitVec.toNat_zero, if_neg (by decide),
        if_pos rfl]
      simp only [hw]
      rw [dif_neg hm.ne']

/-- Packing undoes the unpacking of a float. -/
theorem pack_unpack (f : Float.Model) : Float.Model.pack f.unpack = f := by
  obtain ⟨bits, hvalid⟩ := f
  unfold Float.Model.pack Float.Model.unpack
  simp only [pack_unpack_of_valid hvalid]

/-! ## Shapes -/

/-- Whether a sign is a minus. -/
def isMinus : Sign → Bool
  | .negative => true
  | .positive => false

/-- What an unpacked float stands for. -/
def shape : UnpackedFloat → Shape
  | .infinity s => .infinity (isMinus s)
  | .notANumber => .nan
  | .zero s => .finite ⟨isMinus s, 0, -1074⟩
  | .finite s m e _ => .finite ⟨isMinus s, m, e⟩

/-- Reading a float off its bits is unpacking it. -/
theorem ofFloat_eq_shape (x : Float) : Shape.ofFloat x = shape x.toModel.unpack := by
  obtain ⟨s, v, w, hb⟩ := exists_parts x.toModel.toBits.toBitVec
  have hv : v.toNat < 2 ^ 11 := v.isLt
  have hw : w.toNat < 2 ^ 52 := w.isLt
  have hs : s.toBitVec.toNat < 2 := s.toBitVec.isLt
  have hbits : x.toBits.toNat = s.toBitVec.toNat * 2 ^ 63 + v.toNat * 2 ^ 52 + w.toNat := by
    rw [← toNat_packComponents, ← hb]
    rfl
  have hsign : (x.toBits.toNat / 2 ^ 63 % 2 == 1) = isMinus s := by
    have hdiv : x.toBits.toNat / 2 ^ 63 % 2 = s.toBitVec.toNat := by omega
    rw [hdiv]
    cases s <;> rfl
  have hexponent : x.toBits.toNat / 2 ^ 52 % 2 ^ 11 = v.toNat := by omega
  have hfraction : x.toBits.toNat % 2 ^ 52 = w.toNat := by omega
  unfold Shape.ofFloat Float.Model.unpack
  rw [hb, unpack_packComponents]
  simp only [hsign, hexponent, hfraction]
  split
  · split <;> rfl
  · split
    · split
      · rename_i h
        rw [h]
        rfl
      · rfl
    · rfl

theorem shape_injective {v : UnpackedFloat} (h : shape u = shape v) : u = v := by
  have hsign (s t : Sign) (h : isMinus s = isMinus t) : s = t := by
    cases s <;> cases t <;> first | rfl | cases h
  cases u <;> cases v <;> simp only [shape, Shape.infinity.injEq, Shape.finite.injEq,
    Binary.mk.injEq, reduceCtorEq] at h
  case infinity.infinity s t => rw [hsign s t h]
  case notANumber.notANumber => rfl
  case zero.zero s t => rw [hsign s t h.1]
  case zero.finite => omega
  case finite.zero => omega
  case finite.finite s m e hm t n f hn =>
    obtain ⟨hst, rfl, rfl⟩ := h
    rw [hsign s t hst]

/-- Floats of one shape are equal. -/
theorem ofFloat_injective {x y : Float} (h : Shape.ofFloat x = Shape.ofFloat y) : x = y := by
  rw [ofFloat_eq_shape, ofFloat_eq_shape] at h
  obtain ⟨x⟩ := x
  obtain ⟨y⟩ := y
  rw [← pack_unpack x, ← pack_unpack y, shape_injective h]

/-- The shape of a float that is packed from a canonical form. -/
theorem ofFloat_pack (h : Canonical u) : Shape.ofFloat ⟨Float.Model.pack u⟩ = shape u := by
  rw [ofFloat_eq_shape, unpack_pack h]

/-- What stands for the same with the other sign. -/
def Shape.negated : Shape → Shape
  | .nan => .nan
  | .infinity negative => .infinity !negative
  | .finite b => .finite { b with negative := !b.negative }

theorem ofFloat_neg (x : Float) : Shape.ofFloat (-x) = (Shape.ofFloat x).negated := by
  have h := canonical_unpack x.toModel
  have hneg : Canonical x.toModel.unpack.neg := by
    cases hu : x.toModel.unpack <;> rw [hu] at h <;> exact h
  have hsign (s : Sign) : isMinus (-s) = !isMinus s := by
    cases s <;> rfl
  rw [show Shape.ofFloat (-x) = shape x.toModel.unpack.neg from ofFloat_pack hneg, ofFloat_eq_shape]
  cases x.toModel.unpack <;> simp only [UnpackedFloat.neg, shape, Shape.negated, hsign]

/-- The numbers that floats stand for. -/
structure Binary.IsFloat (b : Binary) : Prop where
  significand_lt : b.significand < 2 ^ 53
  le_exponent : -1074 ≤ b.exponent
  exponent_le : b.exponent ≤ 971
  normal : 2 ^ 52 ≤ b.significand ∨ b.exponent = -1074

theorem isFloat_of_ofFloat {x : Float} {b : Binary} (h : Shape.ofFloat x = .finite b) :
    b.IsFloat := by
  have hc := canonical_unpack x.toModel
  rw [ofFloat_eq_shape] at h
  cases hu : x.toModel.unpack <;> rw [hu] at h hc <;>
    simp only [shape, Shape.finite.injEq, reduceCtorEq] at h
  case zero s =>
    rw [← h]
    exact ⟨by norm_num, le_rfl, by norm_num, .inr rfl⟩
  case finite s m e hm =>
    rw [← h]
    exact ⟨hc.1, hc.2.1, hc.2.2.1, hc.2.2.2⟩

theorem isFinite_iff {x : Float} : x.isFinite = true ↔ ∃ b, Shape.ofFloat x = .finite b := by
  have hdef : x.isFinite = x.toModel.unpack.isFinite := rfl
  rw [hdef, ofFloat_eq_shape]
  cases x.toModel.unpack <;> simp [UnpackedFloat.isFinite, shape]

/-- What is no zero is unpacked to its sign, a significand and an exponent. -/
theorem exists_unpack_eq_finite {x : Float} {b : Binary} (h : Shape.ofFloat x = .finite b)
    (hzero : b.significand ≠ 0) :
    ∃ s m e hm, x.toModel.unpack = .finite s m e hm ∧ isMinus s = b.negative := by
  rw [ofFloat_eq_shape] at h
  cases hu : x.toModel.unpack <;> rw [hu] at h <;>
    simp only [shape, Shape.finite.injEq, reduceCtorEq] at h
  case zero s => exact absurd (congrArg Binary.significand h).symm hzero
  case finite s m e hm => exact ⟨s, m, e, hm, rfl, congrArg Binary.negative h⟩

theorem unpack_zero : (0.0 : Float).toModel.unpack = .zero .positive := rfl

/-- A number with a minus sign is below zero, unless it is a zero. -/
theorem lt_zero_of_negative {x : Float} {b : Binary} (h : Shape.ofFloat x = .finite b)
    (hneg : b.negative = true) (hzero : b.significand ≠ 0) : x < 0.0 := by
  obtain ⟨s, m, e, hm, hx, hs⟩ := exists_unpack_eq_finite h hzero
  refine decide_eq_true (show x.toModel.unpack.lt (0.0 : Float).toModel.unpack = true from ?_)
  rw [hx, unpack_zero]
  cases s with
  | negative => rfl
  | positive => cases hs.trans hneg

/-- A number without one is above zero, unless it is a zero. -/
theorem zero_lt_of_not_negative {x : Float} {b : Binary} (h : Shape.ofFloat x = .finite b)
    (hpos : b.negative = false) (hzero : b.significand ≠ 0) : 0.0 < x := by
  obtain ⟨s, m, e, hm, hx, hs⟩ := exists_unpack_eq_finite h hzero
  refine decide_eq_true (show (0.0 : Float).toModel.unpack.lt x.toModel.unpack = true from ?_)
  rw [hx, unpack_zero]
  cases s with
  | positive => rfl
  | negative => cases hs.trans hpos

/-- A number equals zero exactly if it is one of the two zeros. -/
theorem beq_zero_iff {x : Float} {b : Binary} (h : Shape.ofFloat x = .finite b) :
    (x == 0.0) = true ↔ b.significand = 0 := by
  have hplus : Shape.ofFloat 0.0 = .finite ⟨false, 0, -1074⟩ := rfl
  have hminus : Shape.ofFloat (-0.0) = .finite ⟨true, 0, -1074⟩ := by decide
  constructor
  · intro heq
    obtain ⟨-, -, rfl | ⟨rfl, -⟩ | ⟨rfl, -⟩⟩ := Float.beq_iff_ne_nan_and_eq.mp heq
    · cases hplus.symm.trans h
      rfl
    · cases hplus.symm.trans h
      rfl
    · cases hminus.symm.trans h
      rfl
  · intro hzero
    obtain ⟨negative, significand, exponent⟩ := b
    obtain rfl : significand = 0 := hzero
    obtain rfl : exponent = -1074 := (isFloat_of_ofFloat h).normal.resolve_left (by simp)
    cases negative with
    | false =>
      rw [ofFloat_injective (h.trans hplus.symm)]
      decide
    | true =>
      rw [ofFloat_injective (h.trans hminus.symm)]
      decide

end Tariff.Number
