import Tariff.Number.Layout
import Tariff.Text.Digits
import Tariff.Text.Pieces

/-!
# Writing TOML

A text is a list of sections with a blank line between them, each a header and the lines under it.

* `stringText`: a string, in the first of five forms that can hold it without escapes; the last form
  escapes.
* `keyText`: a key, without quotes where it can stand so.
* `numberLayout`: floats are written without exponents and keep a point.
* `Section.lines`, `sectionsText`: a section, and a whole text.
* `Section.isWritable`: whether all values of a section can be written.
-/

namespace Tariff.Toml

-- Powers are those of the core library.
attribute [local instance (2000)] instPowNat

open Number Text

/-- Floats have the fewest digits that read back, and never an exponent. -/
def numberLayout : Layout := ⟨.up, none, true, "nan"⟩

/-! ## Strings -/

/-- Whether a character cannot stand in a string without an escape, in any form. -/
def isControl (c : Char) : Bool :=
  (c.toNat < 32 && c != '\t' && c != '\n') || c.toNat == 127

/-- Counts one more character: the longest run of `mark` so far, and the run that ends here. -/
def countRun (mark : Char) : Nat × Nat → Char → Nat × Nat
  | (longest, run), c => if c = mark then (max longest (run + 1), run + 1) else (longest, 0)

/-- The length of the longest run of a character. -/
def longestRun (mark : Char) (cs : List Char) : Nat :=
  (cs.foldl (countRun mark) (0, 0)).1

/-- The upper-case digit of a number below sixteen. -/
def upperHexDigit (n : Nat) : Char :=
  if n < 10 then Char.ofNat (48 + n) else Char.ofNat (55 + n)

/-- A code of a character in the range of ASCII. -/
def codeEscape (c : Char) : List Char :=
  ['\\', 'u', '0', '0', upperHexDigit (c.toNat / 16), upperHexDigit (c.toNat % 16)]

/-- A character as it stands between quotes, quotes themselves apart. -/
def escapeChar (c : Char) : List Char :=
  if c = '\\' then ['\\', '\\']
  else if c = '\x08' then ['\\', 'b']
  else if c = '\t' then ['\\', 't']
  else if c = '\n' then ['\\', 'n']
  else if c = '\x0c' then ['\\', 'f']
  else if c = '\r' then ['\\', 'r']
  else if isControl c then codeEscape c
  else [c]

/-- A string between quotes on one line. -/
def escapeLine (cs : List Char) : List Char :=
  cs.flatMap fun c => if c = '"' then ['\\', '"'] else escapeChar c

/-- A string between three quotes. Line breaks stand as they are, and every third of a run of quotes
is escaped; `run` counts the quotes in front. -/
def escapeBlock : Nat → List Char → List Char
  | _, [] => []
  | run, c :: cs =>
    if c = '"' then
      if run = 2 then '\\' :: '"' :: escapeBlock 0 cs else '"' :: escapeBlock (run + 1) cs
    else (if c = '\n' then [c] else escapeChar c) ++ escapeBlock 0 cs

/-- Three marks on either side of the lines of a string; a string with line breaks starts on a line
of its own. -/
def enclosed (mark : Char) (cs lines : List Char) : List Char :=
  let marks := [mark, mark, mark]
  marks ++ (if cs.contains '\n' then ['\n'] else []) ++ lines ++ marks

/-- The characters of a string with its quotes. -/
def stringChars (cs : List Char) : List Char :=
  let control := cs.any isControl
  let backslash := cs.contains '\\'
  let broken := cs.contains '\n'
  let quotes := longestRun '"' cs
  let apostrophes := longestRun '\'' cs
  if !control && !backslash && quotes == 0 && !broken then '"' :: escapeLine cs ++ ['"']
  else if !control && apostrophes == 0 && !broken then '\'' :: cs ++ ['\'']
  else if !control && !backslash && quotes ≤ 2 then enclosed '"' cs (escapeBlock 0 cs)
  else if !control && apostrophes ≤ 2 then enclosed '\'' cs cs
  else if broken then enclosed '"' cs (escapeBlock 0 cs)
  else '"' :: escapeLine cs ++ ['"']

/-- A string with its quotes. -/
def stringText (s : String) : String :=
  String.ofList (stringChars s.toList)

/-- Whether a key can stand without quotes. -/
def isBareKey (cs : List Char) : Bool :=
  !cs.isEmpty && cs.all fun c => c.isAlphanum || c == '_' || c == '-'

/-- The characters of a key, with its quotes where it needs them. -/
def keyChars (cs : List Char) : List Char :=
  let control := cs.any fun c => isControl c || c == '\n'
  if isBareKey cs then cs
  else if !control && !cs.contains '\\' && !cs.contains '"' then '"' :: escapeLine cs ++ ['"']
  else if !control && !cs.contains '\'' then '\'' :: cs ++ ['\'']
  else '"' :: escapeLine cs ++ ['"']

/-- A key, with its quotes where it needs them. -/
def keyText (s : String) : String :=
  String.ofList (keyChars s.toList)

/-! ## Sections -/

/-- A value that a section has under a key. -/
inductive Value where
  | text (s : String)
  | integer (n : Int)
  | real (x : Float)
  | texts (items : List String)

/-- A list of strings; more than one stand on lines of their own. -/
def textsText : List String → String
  | [] => "[]"
  | [s] => "[" ++ stringText s ++ "]"
  | items => "[\n" ++ joined "" (items.map fun s => "    " ++ stringText s ++ ",\n") ++ "]"

/-- The text of a value. -/
def Value.written : Value → String
  | .text s => stringText s
  | .integer n => intText n
  | .real x => numberLayout.text x
  | .texts items => textsText items

/-- Whether the value can be written. Whole numbers have 64 bits, one of them for the sign. -/
def Value.isWritable : Value → Bool
  | .integer n => decide (-2 ^ (63 : Nat) ≤ n ∧ n < 2 ^ (63 : Nat))
  | _ => true

/-- What a section starts with. -/
inductive Header where
  /-- Nothing; only the first section may start so. -/
  | none
  /-- The name of a table. -/
  | table (name : String)
  /-- The name of a list that the section is one more table of. -/
  | item (name : String)
  deriving DecidableEq, Repr

/-- The line of a header. -/
def Header.line : Header → String
  | none => ""
  | table name => "[" ++ keyText name ++ "]\n"
  | item name => "[[" ++ keyText name ++ "]]\n"

/-- A header with the values under it. -/
structure Section where
  header : Header
  fields : List (String × Value)

/-- The lines of a section. -/
def Section.lines (part : Section) : String :=
  part.header.line ++
    joined "" (part.fields.map fun (key, value) => keyText key ++ " = " ++ value.written ++ "\n")

/-- Whether all values of the section can be written. -/
def Section.isWritable (part : Section) : Bool :=
  part.fields.all (·.2.isWritable)

/-- The text of sections, with a blank line between neighbours. -/
def sectionsText (sections : List Section) : String :=
  joined "\n" (sections.map Section.lines)

end Tariff.Toml
