import Tariff.Number.Fixed
import Tariff.Number.Rounding

/-!
# Decimals of 96 bits

Quotas are counted in decimals: a whole number of units of a power of ten, with fewer than `2 ^ 96`
units and at most 28 decimal places. A result that needs more is rounded once to the nearest decimal
that fits, ties to even, and keeps as many places as it can; where even whole numbers are too large
there is no result.

* `fit?`: the rounding that all operations end with.
* `mul?`, `add?`, `divNat?`: the operations. `round`: fewer places.
* `text`: all the places that a decimal has, zeros included.
-/

namespace Tariff

open Number Text

-- Powers are those of the core library.
attribute [local instance (2000)] instPowNat

/-- The units of a decimal stay below this. -/
def unitLimit : Nat := 2 ^ (96 : Nat)

/-- The most decimal places. -/
def maxScale : Nat := 28

/-- The number `units / 10 ^ scale`. -/
structure Decimal where
  units : Int
  /-- The decimal places. -/
  scale : Nat
  units_lt : units.natAbs < unitLimit
  scale_le : scale ≤ maxScale
  deriving DecidableEq

namespace Decimal

/-- A magnitude with a sign. -/
def signed (negative : Bool) (magnitude : Nat) : Int :=
  if negative then -magnitude else magnitude

theorem natAbs_signed (negative : Bool) (magnitude : Nat) :
    (signed negative magnitude).natAbs = magnitude := by
  unfold signed
  split <;> simp

/-- Whether a decimal is below zero. -/
def isNegative (a : Decimal) : Bool :=
  decide (a.units < 0)

/-- The units without their sign. -/
def magnitude (a : Decimal) : Nat :=
  a.units.natAbs

def zero : Decimal := ⟨0, 0, by decide, by decide⟩

def one : Decimal := ⟨1, 0, by decide, by decide⟩

/-- A whole number of 64 bits. -/
def ofUInt64 (n : UInt64) : Decimal :=
  ⟨n.toNat, 0, by have := n.toNat_lt; simp [unitLimit]; omega, by decide⟩

/-- The decimal of these parts, if they are in range. -/
def make? (negative : Bool) (magnitude scale : Nat) : Option Decimal :=
  if h : magnitude < unitLimit ∧ scale ≤ maxScale then
    some ⟨signed negative magnitude, scale, by rw [natAbs_signed]; exact h.1, h.2⟩
  else none

/-- The counts of places that can be dropped, fewest first. -/
def drops (scale : Nat) : List Nat :=
  (List.range (scale + 1)).filter fun k => scale - k ≤ maxScale

/-- The quotient `num / den` of `scale` places, with the fewest places dropped that make it fit. -/
def fit? (negative : Bool) (num den scale : Nat) : Option Decimal :=
  (drops scale).findSome? fun k => make? negative (roundDiv .toEven num (den * 10 ^ k)) (scale - k)

/-- Whether a product of two small factors has so many places that it counts as zero. -/
def vanishes (a b : Decimal) : Bool :=
  a.magnitude < 2 ^ (32 : Nat) && b.magnitude < 2 ^ (32 : Nat) && 47 < a.scale + b.scale

/-- The product, if it is in range. -/
def mul? (a b : Decimal) : Option Decimal :=
  if a.units = 0 ∨ b.units = 0 ∨ a.vanishes b then some zero
  else fit? (a.isNegative != b.isNegative) (a.magnitude * b.magnitude) 1 (a.scale + b.scale)

/-- The units of a decimal written with `scale` places. -/
def unitsAt (a : Decimal) (scale : Nat) : Int :=
  a.units * 10 ^ (scale - a.scale)

/-- The sum, if it is in range; adding zero changes nothing. -/
def add? (a b : Decimal) : Option Decimal :=
  if a.units = 0 then some b
  else if b.units = 0 then some a
  else
    let scale := max a.scale b.scale
    let sum := a.unitsAt scale + b.unitsAt scale
    fit? (decide (sum < 0)) sum.natAbs 1 scale

/-! ## Division by a whole number -/

/-- A quotient with a remainder, at some count of places. -/
structure Division where
  quotient : Nat
  remainder : Nat
  scale : Nat
  deriving DecidableEq, Repr

/-- How many digits the next step of a division adds: at most nine, and no more than fit. -/
def room (p : Division) : Nat :=
  (((List.range 10).reverse.filter fun k => k ≤ maxScale - p.scale).find? fun k =>
    p.quotient * 10 ^ k < unitLimit).getD 0

theorem room_le (p : Division) : room p ≤ maxScale - p.scale := by
  unfold room
  cases h : ((List.range 10).reverse.filter fun k => k ≤ maxScale - p.scale).find? fun k =>
      p.quotient * 10 ^ k < unitLimit with
  | none => simp
  | some k => simpa using (List.mem_filter.mp (List.mem_of_find?_eq_some h)).2

/-- Adds digits to a quotient until nothing remains or no digit fits. -/
def refine (divisor : Nat) (p : Division) : Division :=
  if h : p.remainder = 0 ∨ room p = 0 then p
  else
    let tens := 10 ^ room p
    refine divisor ⟨p.quotient * tens + p.remainder * tens / divisor,
      p.remainder * tens % divisor, p.scale + room p⟩
  termination_by maxScale - p.scale
  decreasing_by have := room_le p; omega

/-- Takes zeros off the end in blocks of eight, as long as a block also leaves 32 clear bits. -/
def stripEights (units scale : Nat) : Nat × Nat :=
  if units % 2 ^ (32 : Nat) = 0 ∧ 8 ≤ scale ∧ units % 10 ^ (8 : Nat) = 0 then
    stripEights (units / 10 ^ (8 : Nat)) (scale - 8)
  else (units, scale)
  termination_by scale

/-- Takes a block of `width` zeros off the end, if there is one. -/
def stripBlock (width : Nat) (a : Nat × Nat) : Nat × Nat :=
  if width ≤ a.2 ∧ a.1 % 10 ^ width = 0 then (a.1 / 10 ^ width, a.2 - width) else a

/-- Takes zeros off the end of a quotient. -/
def strip (units scale : Nat) : Nat × Nat :=
  stripBlock 1 (stripBlock 2 (stripBlock 4 (stripEights units scale)))

/-- The quotient by a whole number, if it is in range: exact where it ends within the places, and
else with as many digits as fit. Zeros at the end go, unless the quotient was whole at once. -/
def divNat? (a : Decimal) (divisor : Nat) : Option Decimal :=
  if divisor = 0 then none
  else if a.units = 0 then some zero
  else
    let start : Division := ⟨a.magnitude / divisor, a.magnitude % divisor, a.scale⟩
    let p := refine divisor start
    (fit? a.isNegative (p.quotient * divisor + p.remainder) divisor p.scale).bind fun q =>
      if start.remainder = 0 then some q
      else
        let (units, scale) := strip q.magnitude q.scale
        make? a.isNegative units scale

/-! ## Order, rounding and text -/

/-- Whether a decimal is less than one. -/
def ltOne (a : Decimal) : Bool :=
  decide (a.units < 10 ^ a.scale)

theorem round_bound {m places scale : Nat} (h : m < unitLimit) (hs : places < scale) :
    roundDiv .toEven m (10 ^ (scale - places)) < unitLimit := by
  have h₁ := roundDiv_le .toEven m (10 ^ (scale - places))
  have h₂ : m / 10 ^ (scale - places) ≤ m / 10 :=
    Nat.div_le_div_left (Nat.le_self_pow (by omega) 10) (by decide)
  have : unitLimit = 2 ^ (96 : Nat) := rfl
  omega

/-- The decimal with at most `places` places, a tie going to the even neighbour. -/
def round (a : Decimal) (places : Nat) : Decimal :=
  if h : places < a.scale then
    ⟨signed a.isNegative (roundDiv .toEven a.magnitude (10 ^ (a.scale - places))), places,
      by rw [natAbs_signed]; exact round_bound a.units_lt h, by have := a.scale_le; omega⟩
  else a

/-- The decimal with all its places. -/
def text (a : Decimal) : String :=
  signText a.isNegative ++ String.ofList (pointed a.scale a.magnitude)

/-- Reads a decimal with the places that are written. -/
def ofText? (s : String) : Option Decimal :=
  let (negative, body) := match s.toList with
    | '-' :: rest => (true, rest)
    | '+' :: rest => (false, rest)
    | cs => (false, cs)
  let whole := body.takeWhile isDigit
  let places := match body.dropWhile isDigit with
    | [] => some []
    | '.' :: rest => if rest.all isDigit then some rest else none
    | _ => none
  places.bind fun places =>
    if whole ++ places = [] then none
    else fit? negative (value (whole ++ places)) 1 places.length

end Decimal

end Tariff
