/-!
# Blank characters and trimming

A blank is a character with the Unicode property `White_Space`. Names, patterns and the lines of a
table lose the blanks at their ends; a zero-width space is no blank and stays.

* `isBlank`: the 25 characters of the property.
* `trimLeft`, `trimRight`, `trim`: drop the blanks at one end or both.
* `trimmed`, `isBlankText`: the same on a `String`.
-/

namespace Tariff.Text

/-- The characters with the property `White_Space`. -/
def isBlank (c : Char) : Bool :=
  c.val == 0x20 || (0x9 ≤ c.val && c.val ≤ 0xd) || c.val == 0x85 || c.val == 0xa0 ||
    c.val == 0x1680 || (0x2000 ≤ c.val && c.val ≤ 0x200a) || c.val == 0x2028 || c.val == 0x2029 ||
    c.val == 0x202f || c.val == 0x205f || c.val == 0x3000

/-- Drops the blanks a text starts with. -/
def trimLeft (cs : List Char) : List Char :=
  cs.dropWhile isBlank

/-- Drops the blanks a text ends with. -/
def trimRight (cs : List Char) : List Char :=
  (cs.reverse.dropWhile isBlank).reverse

/-- Drops the blanks at both ends. -/
def trim (cs : List Char) : List Char :=
  trimRight (trimLeft cs)

/-- A text without the blanks at its ends. -/
def trimmed (s : String) : String :=
  String.ofList (trim s.toList)

/-- A text without the blanks it ends with. -/
def trimmedRight (s : String) : String :=
  String.ofList (trimRight s.toList)

/-- A text of blanks only, such as the empty one. -/
def isBlankText (s : String) : Bool :=
  s.toList.all isBlank

end Tariff.Text
