import Tariff.Number.Binary
import Tariff.Number.Rounding

/-!
# Decimal numerals and the floats they stand for

* `Numeral`: a sign, natural digits and a power of ten.
* `Numeral.toFloat`: the nearest float.
* `shortest`: the numeral with the fewest digits that reads back as a given float; of two such, the
  nearer one. It is found by trying ever finer decimal grids around the value: if any point of a
  grid reads back, one of the two next to the value does.
* `exact`: the digits of the whole value, which stand in should no grid do.
-/

namespace Tariff.Number

-- Powers are those of the core library.
attribute [local instance (2000)] instPowNat

/-- The number `± digits · 10 ^ exponent`. -/
structure Numeral where
  /-- Whether the numeral has a minus sign. -/
  negative : Bool
  /-- The digits read as one natural number. -/
  digits : Nat
  /-- The power of ten. -/
  exponent : Int
  deriving DecidableEq, Repr

/-- The float nearest to `digits · 10 ^ exponent`, a tie to the even one. -/
def magnitude (digits : Nat) (exponent : Int) : Float :=
  Float.ofScientific digits (exponent < 0) exponent.natAbs

/-- The float nearest to a numeral; infinite where the numeral is out of range. -/
def Numeral.toFloat (n : Numeral) : Float :=
  if n.negative then -magnitude n.digits n.exponent else magnitude n.digits n.exponent

/-- The numeral of equal value whose digits do not end in zero. -/
def Numeral.normalized (n : Numeral) : Numeral :=
  if n.digits = 0 then { n with exponent := 0 }
  else if n.digits % 10 = 0 then
    Numeral.normalized { n with digits := n.digits / 10, exponent := n.exponent + 1 }
  else n
  termination_by n.digits

/-- The point of the grid of multiples of `10 ^ step` that reads back as `x`, the nearer of the two
next to the value `b` of `x` first. -/
def gridPoint (tie : Tie) (x : Float) (b : Binary) (step : Int) : Option Numeral :=
  let (num, den) := b.scaled (-step)
  let below := num / den
  let near := roundDiv tie num den
  let far := if near = below then below + 1 else below
  [near, far].findSome? fun digits =>
    let n : Numeral := ⟨b.negative, digits, step⟩
    if n.toFloat = x then some n else none

/-- The whole value: a power of two is a power of ten divided by one of five. -/
def exact (b : Binary) : Numeral :=
  ⟨b.negative, b.significand * 2 ^ b.exponent.toNat * 5 ^ (-b.exponent).toNat, min b.exponent 0⟩

/-- A power of ten near the value, at most one too small. -/
def decimalOrder (b : Binary) : Int :=
  (b.significand.log2 + b.exponent) * 30103 / 100000

/-- The grids that are tried, the coarsest first. -/
def gridSteps (b : Binary) : List Int :=
  (List.range 20).map fun (i : Nat) => decimalOrder b + 1 - (i : Int)

/-- The numeral with the fewest digits that reads back as `x`, the float of value `b`. -/
def shortest (tie : Tie) (x : Float) (b : Binary) : Numeral :=
  (((gridSteps b).findSome? (gridPoint tie x b)).getD (exact b)).normalized

theorem toFloat_of_gridPoint {tie : Tie} {x : Float} {b : Binary} {step : Int} {n : Numeral}
    (h : gridPoint tie x b step = some n) : n.toFloat = x := by
  simp only [gridPoint] at h
  obtain ⟨d, -, hd⟩ := List.exists_of_findSome?_eq_some h
  split at hd
  · simp_all
  · simp at hd

end Tariff.Number
