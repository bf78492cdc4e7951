import Tariff.Text.Blank

/-!
# Texts made of pieces

* `pieces`: the parts of a text between the occurrences of a separator.
* `joined`: the parts with a separator between them.
* `trimmedPieces`: the parts without the blanks around them, the blank ones left out.
-/

namespace Tariff.Text

/-- The parts of `s` between the occurrences of `separator`; a text without one is one part. -/
def pieces (separator : Char) (s : String) : List String :=
  (s.toList.splitOn separator).map String.ofList

/-- The parts with `separator` between neighbours. -/
def joined (separator : String) (parts : List String) : String :=
  separator.intercalate parts

/-- The parts between separators, trimmed, without the empty ones. -/
def trimmedPieces (separator : Char) (s : String) : List String :=
  ((pieces separator s).map trimmed).filter (· ≠ "")

end Tariff.Text
