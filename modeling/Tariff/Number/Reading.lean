import Tariff.Number.Scientific
import Tariff.Text.Digits

/-!
# Reading numbers

Numbers as a person writes them: with a sign of either kind, digits on at least one side of a point,
and a power of ten behind an `e`; or one of the words for what is no finite number.

* `natural?`, `integer?`: whole numbers. `numeral?`: numbers with places and a power of ten.
* `float?`: the nearest float, or a float that is no finite number.
-/

namespace Tariff.Number

open Text

/-- Takes a sign off the front; no sign counts as plus. -/
def takeSign : List Char → Bool × List Char
  | '-' :: rest => (true, rest)
  | '+' :: rest => (false, rest)
  | cs => (false, cs)

/-- The number that a text of digits stands for. -/
def digitsValue? (cs : List Char) : Option Nat :=
  if cs ≠ [] ∧ cs.all isDigit then some (value cs) else none

/-- A whole number; a plus sign may stand in front. -/
def natural? (s : String) : Option Nat :=
  match s.toList with
  | '+' :: rest => digitsValue? rest
  | cs => digitsValue? cs

/-- A whole number with or without a sign. -/
def integer? (s : String) : Option Int :=
  let (negative, body) := takeSign s.toList
  (digitsValue? body).map fun n => if negative then -n else n

/-- The power of ten that follows the digits of a number. -/
def exponentTail? : List Char → Option Int
  | [] => some 0
  | c :: rest => if c = 'e' ∨ c = 'E' then integer? (String.ofList rest) else none

/-- A number without its sign. -/
def unsigned? (negative : Bool) (cs : List Char) : Option Numeral :=
  let whole := cs.takeWhile isDigit
  let (places, tail) := match cs.dropWhile isDigit with
    | '.' :: rest => (rest.takeWhile isDigit, rest.dropWhile isDigit)
    | rest => ([], rest)
  if whole ++ places = [] then none
  else
    (exponentTail? tail).map fun e => ⟨negative, value (whole ++ places), e - places.length⟩

/-- A number with places and a power of ten. -/
def numeral? (s : String) : Option Numeral :=
  let (negative, body) := takeSign s.toList
  unsigned? negative body

/-- The words for what is no finite number, in any mix of cases. -/
def special? (s : String) : Option Float :=
  let (negative, body) := takeSign s.toList
  let magnitude : Option Float := match String.ofList (body.map Char.toLower) with
    | "inf" | "infinity" => some (1.0 / 0.0)
    | "nan" => some (0.0 / 0.0)
    | _ => none
  magnitude.map fun x => if negative then -x else x

/-- The nearest float, or one that is no finite number. -/
def float? (s : String) : Option Float :=
  match special? s with
  | some x => some x
  | none => (numeral? s).map Numeral.toFloat

end Tariff.Number
