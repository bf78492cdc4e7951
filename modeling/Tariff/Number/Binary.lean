/-!
# The value of a float

A finite float stands for a natural significand times a power of two, with a sign. `Shape.ofFloat`
reads this off the bits: one of sign, eleven of exponent, fifty-two of significand, with the leading
one left out unless the exponent bits are all zero.
-/

namespace Tariff.Number

-- Powers are those of the core library.
attribute [local instance (2000)] instPowNat

/-- The number `± significand · 2 ^ exponent`. -/
structure Binary where
  /-- Whether the number has a minus sign; zero can have one too. -/
  negative : Bool
  /-- The significand, zero for the two zeros only. -/
  significand : Nat
  /-- The power of two. -/
  exponent : Int
  deriving DecidableEq, Repr

/-- What a float stands for. -/
inductive Shape where
  /-- No number. -/
  | nan
  /-- An infinity. -/
  | infinity (negative : Bool)
  /-- A number. -/
  | finite (value : Binary)
  deriving DecidableEq, Repr

/-- Reads a float off its bits. -/
def Shape.ofFloat (x : Float) : Shape :=
  let bits : Nat := x.toBits.toNat
  let negative := bits / 2 ^ (63 : Nat) % 2 == 1
  let exponent : Nat := bits / 2 ^ (52 : Nat) % 2 ^ (11 : Nat)
  let fraction : Nat := bits % 2 ^ (52 : Nat)
  if exponent = 2047 then
    if fraction = 0 then .infinity negative else .nan
  else if exponent = 0 then
    .finite ⟨negative, fraction, -1074⟩
  else
    .finite ⟨negative, 2 ^ (52 : Nat) + fraction, exponent - 1075⟩

/-- The magnitude of a number as a fraction of natural numbers, times a power of ten. -/
def Binary.scaled (b : Binary) (tens : Int) : Nat × Nat :=
  (b.significand * 2 ^ b.exponent.toNat * 10 ^ tens.toNat,
    2 ^ (-b.exponent).toNat * 10 ^ (-tens).toNat)

theorem Binary.scaled_den_pos (b : Binary) (tens : Int) : 0 < (b.scaled tens).2 :=
  Nat.mul_pos (Nat.two_pow_pos _) (Nat.pow_pos (by decide))

end Tariff.Number
