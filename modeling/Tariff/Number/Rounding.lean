/-!
# Rounding a quotient

* `Tie`: where a value half-way between two neighbours goes.
* `roundDiv`: the natural number nearest to a quotient.
* `roundDiv_le`: it is at most the upper neighbour of the quotient.
-/

namespace Tariff.Number

/-- The neighbour that a value exactly half-way goes to. -/
inductive Tie where
  /-- The larger neighbour. -/
  | up
  /-- The even neighbour. -/
  | toEven
  deriving DecidableEq, Repr

/-- `quotient`, or the number after it, as a tie between the two falls. -/
def Tie.settle : Tie → Nat → Nat
  | .up, quotient => quotient + 1
  | .toEven, quotient => quotient + quotient % 2

/-- The natural number nearest to `num / den`. -/
def roundDiv (tie : Tie) (num den : Nat) : Nat :=
  match compare (2 * (num % den)) den with
  | .lt => num / den
  | .gt => num / den + 1
  | .eq => tie.settle (num / den)

theorem roundDiv_le (tie : Tie) (num den : Nat) : roundDiv tie num den ≤ num / den + 1 := by
  unfold roundDiv
  split
  · omega
  · omega
  · cases tie
    · simp [Tie.settle]
    · simp only [Tie.settle]
      omega

end Tariff.Number
