import Tariff.Number.Fixed
import Tariff.Number.Scientific

/-!
# Writing numbers out

A float is written with the fewest digits that read back, without or with an exponent. What formats
differ in is one `Layout`.

* `Layout.write`: the text of a numeral. `Layout.text`: the text of a float.
* `plainLayout`: numbers as messages have them.
-/

namespace Tariff.Number

open Text

/-- What formats of numbers differ in. -/
structure Layout where
  /-- Which of two equally near numerals is taken. -/
  tie : Tie
  /-- The least and the greatest order of magnitude written without an exponent; all, if none. -/
  plainOrders : Option (Int × Int)
  /-- Whether a whole number keeps a zero behind a point. -/
  keepsPoint : Bool
  /-- The text for what is no number. -/
  nan : String
  deriving DecidableEq, Repr

namespace Layout

/-- The order of magnitude of a numeral: the power of ten that its first digit counts. -/
def order (n : Numeral) : Int :=
  n.exponent + (digits n.digits).length - 1

/-- Whether numerals of some order are written without an exponent. -/
def isPlain (layout : Layout) (order : Int) : Bool :=
  match layout.plainOrders with
  | none => true
  | some (least, greatest) => least ≤ order && order ≤ greatest

/-- Digits without an exponent, with a point or zeros where they belong. -/
def plain (layout : Layout) (n : Numeral) : List Char :=
  if 0 ≤ n.exponent then
    digits n.digits ++ List.replicate n.exponent.toNat '0' ++
      if layout.keepsPoint then ['.', '0'] else []
  else pointed (-n.exponent).toNat n.digits

/-- One digit, the others behind a point, and the power of ten with its sign. -/
def scientific (n : Numeral) : List Char :=
  let point := match digits n.digits with
    | [] => []
    | [c] => [c]
    | c :: cs => c :: '.' :: cs
  let sign := if order n < 0 then '-' else '+'
  point ++ 'e' :: sign :: digits (order n).natAbs

/-- The text of a numeral. -/
def write (layout : Layout) (n : Numeral) : String :=
  signText n.negative ++
    String.ofList (if layout.isPlain (order n) then layout.plain n else scientific n)

/-- The text of a float. -/
def text (layout : Layout) (x : Float) : String :=
  match Shape.ofFloat x with
  | .nan => layout.nan
  | .infinity negative => signText negative ++ "inf"
  | .finite b => layout.write (shortest layout.tie x b)

end Layout

/-- Numbers in messages: never an exponent, and no point in a whole number. -/
def plainLayout : Layout := ⟨.up, none, false, "NaN"⟩

end Tariff.Number
