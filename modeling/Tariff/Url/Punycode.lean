/-!
# Labels in Punycode

A label of a domain name that has letters beyond ASCII can be written in ASCII: first its ASCII
characters, then, in digits of base 36, where the others go and which they are. Each of these is a
number with its least digit first; how large a digit must be for more to follow adapts to the
numbers read before.

* `decode?`: the characters of such a label.
-/

namespace Tariff.Url.Punycode

/-- The value of a digit of base 36. -/
def digit? (c : Char) : Option Nat :=
  let n := c.toNat
  if 97 ≤ n ∧ n ≤ 122 then some (n - 97)
  else if 65 ≤ n ∧ n ≤ 90 then some (n - 65)
  else if 48 ≤ n ∧ n ≤ 57 then some (n - 22)
  else none

/-- A digit below this ends its number; `place` counts the digits in steps of 36. -/
def threshold (place bias : Nat) : Nat :=
  if place ≤ bias then 1 else min 26 (place - bias)

/-- Divides a number until it is small, and counts the divisions in steps of 36. -/
def scaleDown (n place : Nat) : Nat × Nat :=
  if 455 < n then scaleDown (n / 35) (place + 36) else (n, place)
  termination_by n

/-- The bias after a number was read, for a label of `length` characters. -/
def adapt (number length : Nat) (first : Bool) : Nat :=
  let n := if first then number / 700 else number / 2
  let (n, place) := scaleDown (n + n / length) 0
  place + 36 * n / (n + 38)

/-- A label that is partly read, in the midst of a number or between two. -/
structure Progress where
  /-- The characters so far. -/
  label : List Char
  /-- The code of the character put in last. -/
  code : Nat
  /-- Where the next character goes, unless a number moves it on. -/
  index : Nat
  bias : Nat
  /-- The number so far. -/
  number : Nat
  /-- What the next digit counts. -/
  weight : Nat
  /-- The digits of the number so far in steps of 36, and one step. -/
  place : Nat
  deriving Repr

/-- Puts in the character that a whole number gives. -/
def Progress.putIn (p : Progress) (number : Nat) : Option Progress :=
  let length := p.label.length + 1
  let position := p.index + number
  let code := p.code + position / length
  let index := position % length
  if code.isValidChar then
    some
      { label := p.label.insertIdx index (Char.ofNat code)
        code := code
        index := index + 1
        bias := adapt number length (p.index == 0)
        number := 0
        weight := 1
        place := 36 }
  else none

/-- Reads one digit. -/
def Progress.step (p : Progress) (c : Char) : Option Progress :=
  (digit? c).bind fun digit =>
    let limit := threshold p.place p.bias
    let number := p.number + digit * p.weight
    if digit < limit then p.putIn number
    else
      some { p with number := number, weight := p.weight * (36 - limit), place := p.place + 36 }

/-- The label before any number, made of its ASCII characters. -/
def Progress.start (ascii : List Char) : Progress := ⟨ascii, 128, 0, 72, 0, 1, 36⟩

/-- What stands in front of the last hyphen, and what behind it; a hyphen at the very front counts
as part of the numbers. -/
def splitLast (cs : List Char) : List Char × List Char :=
  let tail := (cs.reverse.takeWhile (· ≠ '-')).reverse
  let front := cs.take (cs.length - tail.length - 1)
  if front = [] then ([], cs) else (front, tail)

/-- The characters of a label, which must have a character beyond ASCII. -/
def decode? (cs : List Char) : Option (List Char) :=
  let (ascii, numbers) := splitLast cs
  (numbers.foldlM Progress.step (.start ascii)).bind fun p =>
    if p.place = 36 ∧ numbers ≠ [] then some p.label else none

end Tariff.Url.Punycode
