import Tariff.Text.Pieces

/-!
# Model patterns

A tier configuration says which models it is for by a list of patterns: a model name, or the start
of one followed by a star.

* `ModelPattern.parse`: reads one pattern; a star anywhere but at the end is refused.
* `ModelPatterns.parse`: reads a comma-separated list; blank entries are skipped and the first
  refused entry is reported.
* `ModelPattern.text`, `ModelPatterns.text`: the written form.
* `ModelPattern.admits`, `ModelPatterns.admits`: whether a model name is meant.
-/

namespace Tariff

open Text

/-- One entry of a list of models. -/
inductive ModelPattern where
  /-- The model of this name. -/
  | exact (name : String)
  /-- Every model whose name starts like this. -/
  | startingWith (stem : String)
  deriving DecidableEq, Repr

/-- A pattern with a star that is not its last character. -/
structure MisplacedWildcard where
  /-- The pattern without the blanks around it. -/
  pattern : String
  deriving DecidableEq, Repr

def MisplacedWildcard.message (fault : MisplacedWildcard) : String :=
  "Wildcard '*' is only supported at the end of a model pattern, got: '" ++ fault.pattern ++ "'"

namespace ModelPattern

/-- Reads the characters of a trimmed pattern: what stands before the first star, and from it on. -/
def ofChars (cs : List Char) : Except MisplacedWildcard ModelPattern :=
  match cs.dropWhile (· ≠ '*') with
  | [] => .ok (.exact (String.ofList cs))
  | [_] => .ok (.startingWith (String.ofList (cs.takeWhile (· ≠ '*'))))
  | _ => .error ⟨String.ofList cs⟩

/-- Reads a pattern; blanks around it do not count. -/
def parse (raw : String) : Except MisplacedWildcard ModelPattern :=
  ofChars (trim raw.toList)

/-- Whether the pattern means the model of this name. -/
def admits : ModelPattern → String → Bool
  | exact name, model => name == model
  | startingWith stem, model => stem.toList.isPrefixOf model.toList

/-- The written form. -/
def text : ModelPattern → String
  | exact name => name
  | startingWith stem => stem ++ "*"

end ModelPattern

/-- The models that a tier configuration is for. -/
structure ModelPatterns where
  /-- The patterns in written order. -/
  items : List ModelPattern
  deriving DecidableEq, Repr

namespace ModelPatterns

/-- No pattern at all. -/
def empty : ModelPatterns := ⟨[]⟩

/-- Reads a comma-separated list. -/
def parse (raw : String) : Except MisplacedWildcard ModelPatterns :=
  ((trimmedPieces ',' raw).mapM ModelPattern.parse).map ModelPatterns.mk

/-- Whether some pattern means the model of this name. -/
def admits (patterns : ModelPatterns) (model : String) : Bool :=
  patterns.items.any (·.admits model)

/-- The written form, without blanks. -/
def text (patterns : ModelPatterns) : String :=
  joined "," (patterns.items.map ModelPattern.text)

end ModelPatterns

end Tariff
