import Tariff.Charge.Decimal
import Tariff.Number.Binary

/-!
# Decimals of floats

A float is turned into the decimal that billing counts with. The significand times a power of two
becomes one times a power of ten by trading factors of two for factors of five; bits that no longer
fit are dropped, and the digits are cut back to the precision of a float.

* `ofFloat?`: the decimal of a finite float, if its magnitude is in range.
* `ofFloat`: the same, with zero for a float that has no decimal.
-/

namespace Tariff.Decimal

open Number

-- Powers are those of the core library.
attribute [local instance (2000)] instPowNat

/-- A magnitude `digits · 10 ^ tens` on its way to a decimal. -/
structure Scaled where
  digits : Nat
  tens : Int
  deriving DecidableEq, Repr

/-- Multiplies by five `count` times where that fits, and else halves and counts a ten. -/
def timesFives : Nat → Scaled → Scaled
  | 0, a => a
  | count + 1, a =>
    timesFives count <|
      if a.digits % 2 ≠ 0 ∧ a.digits * 5 < unitLimit then ⟨a.digits * 5, a.tens⟩
      else ⟨a.digits / 2, a.tens + 1⟩

/-- Divides by five `count` times: by doubling and taking a ten away where that fits. There is no
result where more tens are left than the divisions can take. -/
def overFives : Nat → Scaled → Option Scaled
  | 0, a => some a
  | count + 1, a =>
    if a.digits < 2 ^ (95 : Nat) then overFives count ⟨a.digits * 2, a.tens - 1⟩
    else if 2 * a.tens > count + 1 then none
    else overFives count ⟨a.digits / 5, a.tens⟩

/-- Multiplies `count` tens out, if the digits stay in range. -/
def timesTens : Nat → Nat → Option Nat
  | 0, digits => some digits
  | count + 1, digits => if digits * 10 < unitLimit then timesTens count (digits * 10) else none

/-- One decimal place less, rounding a half up. -/
def dropPlace (digits : Nat) : Nat :=
  if digits % 10 < 5 then digits / 10 else digits / 10 + 1

/-- Drops places until at most 28 are left; a number that loses all its digits is zero. -/
def cutPlaces : Nat → Nat → Nat × Nat
  | digits, places =>
    if places ≤ maxScale then (digits, places)
    else if digits / 10 = 0 then (0, 0)
    else cutPlaces (dropPlace digits) (places - 1)
  termination_by _ places => places

/-- Drops places as long as the digits exceed what a float tells apart. -/
def cutPrecision : Nat → Nat → Nat × Nat
  | digits, 0 => (digits, 0)
  | digits, places + 1 =>
    if digits < 2 ^ (52 : Nat) then (digits, places + 1) else cutPrecision (dropPlace digits) places

/-- Drops zeros at the end of the places. -/
def cutZeros : Nat → Nat → Nat × Nat
  | digits, 0 => (digits, 0)
  | digits, places + 1 =>
    if digits % 10 = 0 then cutZeros (digits / 10) places else (digits, places + 1)

/-- A magnitude as a decimal of whole tens or of places. -/
def settle (negative : Bool) (a : Scaled) : Option Decimal :=
  if 0 ≤ a.tens then
    (timesTens a.tens.toNat a.digits).bind fun digits => make? negative digits 0
  else
    let (digits, places) := cutPlaces a.digits (-a.tens).toNat
    let (digits, places) := cutPrecision digits places
    let (digits, places) := cutZeros digits places
    make? negative digits places

/-- The decimal of the number `b`, if it is in range. -/
def ofBinary? (b : Binary) : Option Decimal :=
  if b.significand = 0 then some zero
  else
    let start : Scaled := ⟨b.significand, b.exponent⟩
    if b.exponent < 0 then settle b.negative (timesFives (-b.exponent).toNat start)
    else (overFives b.exponent.toNat start).bind (settle b.negative)

/-- The decimal of a finite float, if it is in range. -/
def ofFloat? (x : Float) : Option Decimal :=
  match Shape.ofFloat x with
  | .finite b => ofBinary? b
  | _ => none

/-- The decimal that billing takes for a float: zero where there is none. -/
def ofFloat (x : Float) : Decimal :=
  (ofFloat? x).getD zero

end Tariff.Decimal
