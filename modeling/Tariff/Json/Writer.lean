import Tariff.Json.Basic
import Tariff.Number.Layout
import Tariff.Text.Pieces

/-!
# Writing JSON

* `Json.compact`: a value on one line without blanks.
* `Json.pretty`: each item and field on a line of its own, two blanks deeper than what holds it.
* `escape`: the characters of a string; quotes, backslashes and control characters are escaped.
* `numberLayout`: numbers keep a point, or have an exponent where they are very large or small.
-/

namespace Tariff.Json

open Number Text

/-- Numbers have the fewest digits that read back. -/
def numberLayout : Layout := ⟨.toEven, some (-5, 15), true, "null"⟩

/-- The lower-case digit of a number below sixteen. -/
def hexDigit (n : Nat) : Char :=
  if n < 10 then Char.ofNat (48 + n) else Char.ofNat (87 + n)

/-- A character as it stands in a string. -/
def escapeChar (c : Char) : List Char :=
  if c = '"' then ['\\', '"']
  else if c = '\\' then ['\\', '\\']
  else if c = '\x08' then ['\\', 'b']
  else if c = '\t' then ['\\', 't']
  else if c = '\n' then ['\\', 'n']
  else if c = '\x0c' then ['\\', 'f']
  else if c = '\r' then ['\\', 'r']
  else if c.toNat < 32 then ['\\', 'u', '0', '0', hexDigit (c.toNat / 16), hexDigit (c.toNat % 16)]
  else [c]

/-- The characters of a string between its quotes. -/
def escape (cs : List Char) : List Char :=
  cs.flatMap escapeChar

/-- A string with its quotes. -/
def quoted (s : String) : List Char :=
  '"' :: escape s.toList ++ ['"']

/-- Where a value stands: on one line, or in lines at some depth. -/
inductive Place where
  | inline
  | line (depth : Nat)
  deriving DecidableEq, Repr

/-- The place of what a value holds. -/
def Place.inner : Place → Place
  | inline => inline
  | line depth => line (depth + 1)

/-- What stands in front of an item, or of a closing bracket. -/
def Place.break : Place → List Char
  | inline => []
  | line depth => '\n' :: List.replicate (2 * depth) ' '

/-- What stands between a key and its value. -/
def Place.colon : Place → List Char
  | inline => [':']
  | line _ => [':', ' ']

mutual

/-- The text of a value at a place. -/
def write (place : Place) : Json → List Char
  | null => "null".toList
  | bool true => "true".toList
  | bool false => "false".toList
  | integer n => (intText n).toList
  | real x => if x.isFinite then (numberLayout.text x).toList else "null".toList
  | string s => quoted s
  | array [] => ['[', ']']
  | array items => '[' :: writeItems place.inner items ++ place.break ++ [']']
  | object [] => ['{', '}']
  | object fields => '{' :: writeFields place.inner fields ++ place.break ++ ['}']

/-- The items of an array with commas between them. -/
def writeItems (place : Place) : List Json → List Char
  | [] => []
  | [v] => place.break ++ write place v
  | v :: vs => place.break ++ write place v ++ ',' :: writeItems place vs

/-- The fields of an object with commas between them. -/
def writeFields (place : Place) : List (String × Json) → List Char
  | [] => []
  | [(key, v)] => place.break ++ quoted key ++ place.colon ++ write place v
  | (key, v) :: vs =>
    place.break ++ quoted key ++ place.colon ++ write place v ++ ',' :: writeFields place vs

end

/-- A value on one line. -/
def compact (v : Json) : String :=
  String.ofList (write .inline v)

/-- A value in lines. -/
def pretty (v : Json) : String :=
  String.ofList (write (.line 0) v)

end Tariff.Json
