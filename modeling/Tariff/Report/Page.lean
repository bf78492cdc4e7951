import Tariff.Text.Pieces

/-!
# Pages

What is shown is a page: lines made of spans, some of them in a style. A terminal turns styles on
and off by codes; without color the same page is its bare text.

* `Span.text`, `Line.text`, `Page.text`: the text, with or without the codes.
-/

namespace Tariff.Report

open Text

/-- How a span stands out. -/
inductive Style where
  | bold
  | dimmed
  | red
  | green
  | cyan
  deriving DecidableEq, Repr

/-- The number of a style in terminal codes. -/
def Style.number : Style → List Char
  | bold => ['1']
  | dimmed => ['2']
  | red => ['3', '1']
  | green => ['3', '2']
  | cyan => ['3', '6']

/-- The terminal code of a number. -/
def terminalCode (number : List Char) : List Char :=
  '\x1b' :: '[' :: number ++ ['m']

/-- The code that ends all styles. -/
def resetCode : List Char := terminalCode ['0']

/-- A text with a code behind each reset in it, so that a style goes on after it. -/
def resumed (code : List Char) : List Char → List Char
  | [] => []
  | c :: cs =>
    if resetCode.isPrefixOf (c :: cs) then
      resetCode ++ code ++ resumed code (cs.drop (resetCode.length - 1))
    else c :: resumed code cs
  termination_by cs => cs.length

/-- A stretch of text in one style. -/
structure Span where
  style : Option Style
  text : String
  deriving DecidableEq, Repr

/-- A span in no style. -/
def plain (text : String) : Span := ⟨none, text⟩

/-- A span in a style. -/
def Style.on (style : Style) (text : String) : Span := ⟨some style, text⟩

/-- The characters of a span; an empty span has no codes. -/
def Span.chars (colored : Bool) (span : Span) : List Char :=
  match span.style with
  | none => span.text.toList
  | some style =>
    if !colored || span.text = "" then span.text.toList
    else
      let code := terminalCode style.number
      code ++ resumed code span.text.toList ++ resetCode

/-- The spans of a line. -/
abbrev Line := List Span

/-- The text of a line. -/
def Line.text (colored : Bool) (line : Line) : String :=
  String.ofList (line.flatMap (·.chars colored))

/-- The lines of a page. -/
abbrev Page := List Line

/-- The text of a page; no line break follows the last line. -/
def Page.text (colored : Bool) (page : Page) : String :=
  joined "\n" (page.map (Line.text colored))

end Tariff.Report
