import Tariff.Number.Binary
import Tariff.Number.Rounding
import Tariff.Text.Digits

/-!
# Numbers with a fixed count of decimal places

The exact value of a float is rounded once, a tie to the even neighbour; the sign of a negative
number stays even where all the digits are zeros.
-/

namespace Tariff.Number

open Tariff.Text

/-- `units` of the last of `places` decimal places, with a point in front of the places. -/
def pointed (places units : Nat) : List Char :=
  let cs := padded (places + 1) units
  let whole := cs.length - places
  if places = 0 then cs else cs.take whole ++ '.' :: cs.drop whole

/-- The minus sign, if there is one. -/
def signText (negative : Bool) : String :=
  if negative then "-" else ""

/-- `x` with exactly `places` decimal places. -/
def fixed (places : Nat) (x : Float) : String :=
  match Shape.ofFloat x with
  | .nan => "NaN"
  | .infinity negative => signText negative ++ "inf"
  | .finite b =>
    let (num, den) := b.scaled places
    signText b.negative ++ String.ofList (pointed places (roundDiv .toEven num den))

end Tariff.Number
