import Tariff.Document.Basic
import Tariff.Number.Reading
import Tariff.Text.Digits

/-!
# Words of TOML

A value that is neither quoted nor bracketed is one word: yes or no, a number, or a date or time.

* `integerWord?`: whole numbers of 64 bits, decimal or of base two, eight or sixteen.
* `floatWord?`: other numbers, each as the float nearest to it; one beyond the greatest float is
  refused.
* `isMoment`: a date, a time, or both. A record reads as empty from one, all else refuses it.
* `wordValue?`: what a word stands for.

Underscores may stand between digits, and zeros in front of other digits are refused.
-/

namespace Tariff.Toml

open Text Number

-- Powers are those of the core library.
attribute [local instance (2000)] instPowNat

/-! ## Numbers -/

/-- Digits without the underscores between them; at least one digit on either side of each. -/
def ungrouped? (isDigit : Char → Bool) (cs : List Char) : Option (List Char) :=
  let groups := cs.splitOn '_'
  if groups.all fun group => !group.isEmpty && group.all isDigit then some groups.flatten else none

/-- Decimal digits without zeros in front. -/
def decimalDigits? (cs : List Char) : Option (List Char) :=
  (ungrouped? isDigit cs).bind fun digits =>
    if digits.head? = some '0' ∧ digits.length ≠ 1 then none else some digits

/-- A whole number that has 64 bits, one of them for the sign. -/
def inRange? (n : Int) : Option Int :=
  if -2 ^ (63 : Nat) ≤ n ∧ n < 2 ^ (63 : Nat) then some n else none

/-- A whole number in another base, without a sign. -/
def basedWord? (base : Nat) (cs : List Char) : Option Int :=
  (ungrouped? (fun c => (hexValue? c).any (· < base)) cs).bind fun digits =>
    (numberIn? base digits).bind fun n => inRange? n

/-- A whole number. -/
def integerWord? : List Char → Option Int
  | '0' :: 'x' :: rest => basedWord? 16 rest
  | '0' :: 'o' :: rest => basedWord? 8 rest
  | '0' :: 'b' :: rest => basedWord? 2 rest
  | cs =>
    let (negative, body) := takeSign cs
    (decimalDigits? body).bind fun digits =>
      inRange? (if negative then -(value digits : Int) else value digits)

/-- The power of ten behind an `e`. -/
def exponent? (cs : List Char) : Option Int :=
  let (negative, body) := takeSign cs
  (ungrouped? isDigit body).map fun digits =>
    if negative then -(value digits : Int) else value digits

/-- What follows the whole part of a number: places, a power of ten, or both. -/
def fraction? : List Char → Option (List Char × Int)
  | '.' :: rest =>
    let isMark (c : Char) : Bool := c == 'e' || c == 'E'
    (ungrouped? isDigit (rest.takeWhile (!isMark ·))).bind fun places =>
      match rest.dropWhile (!isMark ·) with
      | [] => some (places, 0)
      | _ :: tail => (exponent? tail).map fun e => (places, e)
  | c :: tail => if c = 'e' ∨ c = 'E' then (exponent? tail).map fun e => ([], e) else none
  | [] => none

/-- Whether a character belongs to the whole part of a number. -/
def isWholeChar (c : Char) : Bool :=
  isDigit c || c == '_'

/-- A number with places or a power of ten. -/
def numeralWord? (cs : List Char) : Option Numeral :=
  let (negative, body) := takeSign cs
  (decimalDigits? (body.takeWhile isWholeChar)).bind fun whole =>
    (fraction? (body.dropWhile isWholeChar)).map fun (places, e) =>
      ⟨negative, value (whole ++ places), e - places.length⟩

/-- The words for what is no finite number. -/
def specialWord? (cs : List Char) : Option Float :=
  let (negative, body) := takeSign cs
  if body = "inf".toList then some (if negative then -1.0 / 0.0 else 1.0 / 0.0)
  else if body = "nan".toList then some (0.0 / 0.0)
  else none

/-- A number that is not whole. -/
def floatWord? (cs : List Char) : Option Float :=
  match specialWord? cs with
  | some x => some x
  | none =>
    (numeralWord? cs).bind fun n =>
      let x := n.toFloat
      if x == 1.0 / 0.0 then none else some x

/-! ## Dates and times -/

/-- The number of two digits, if it lies between two others. -/
def pairIn (least greatest : Nat) (tens ones : Char) : Bool :=
  isDigit tens && isDigit ones && least ≤ value [tens, ones] && value [tens, ones] ≤ greatest

/-- The days of a month. -/
def daysIn (year month : Nat) : Nat :=
  if month = 2 then
    if year % 4 = 0 ∧ (year % 100 ≠ 0 ∨ year % 400 = 0) then 29 else 28
  else if month = 4 ∨ month = 6 ∨ month = 9 ∨ month = 11 then 30
  else 31

/-- A date: year, month and day. -/
def isDate : List Char → Bool
  | [y₁, y₂, y₃, y₄, '-', m₁, m₂, '-', d₁, d₂] =>
    [y₁, y₂, y₃, y₄].all isDigit && pairIn 1 12 m₁ m₂ &&
      pairIn 1 (daysIn (value [y₁, y₂, y₃, y₄]) (value [m₁, m₂])) d₁ d₂
  | _ => false

/-- Takes the parts of a second off the front, if there are any. -/
def takeSecondParts : List Char → List Char
  | '.' :: c :: rest => if isDigit c then rest.dropWhile isDigit else '.' :: c :: rest
  | cs => cs

/-- Takes a time of day off the front: hour, minute and second, which may be the sixty-first. -/
def takeTime? : List Char → Option (List Char)
  | h₁ :: h₂ :: ':' :: m₁ :: m₂ :: ':' :: s₁ :: s₂ :: rest =>
    if pairIn 0 23 h₁ h₂ && pairIn 0 59 m₁ m₂ && pairIn 0 60 s₁ s₂ then
      some (takeSecondParts rest)
    else none
  | _ => none

/-- How far a time is off universal time; it may be left open. -/
def isOffset : List Char → Bool
  | [] => true
  | [z] => z == 'Z' || z == 'z'
  | [sign, h₁, h₂, ':', m₁, m₂] =>
    (sign == '+' || sign == '-') && pairIn 0 23 h₁ h₂ && pairIn 0 59 m₁ m₂
  | _ => false

/-- A date, a time, or a date and a time with `T` or one blank between them. -/
def isMoment (cs : List Char) : Bool :=
  isDate cs || takeTime? cs == some [] ||
    (isDate (cs.take 10) &&
      match cs.drop 10 with
      | c :: time => (c == 'T' || c == 't' || c == ' ') && (takeTime? time).any isOffset
      | [] => false)

/-! ## All words -/

/-- What a word stands for. -/
def wordValue? (cs : List Char) : Option Document :=
  if cs = "true".toList then some (.flag true)
  else if cs = "false".toList then some (.flag false)
  else if isMoment cs then some (.record [(some "moment", .text (String.ofList cs))])
  else
    match integerWord? cs with
    | some n => some (.integer n)
    | none => (floatWord? cs).map .real

end Tariff.Toml
