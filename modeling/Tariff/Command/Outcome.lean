import Tariff.Command.Output
import Tariff.Json.Writer
import Tariff.Report.Page

/-!
# What commands come to

* `Failure`: why a command fails, with its causes.
* `Outcome`: what a command prints, and the code it ends with.
* `Plan`: an outcome, or a file to be written first and the outcomes of writing it or not.
-/

namespace Tariff

open Text

/-- Why a command fails. -/
structure Failure where
  message : String
  /-- The causes, each of the one before. -/
  causes : List String
  deriving DecidableEq, Repr

namespace Failure

/-- Failure without a cause of its own. -/
def plain (message : String) : Failure := ⟨message, []⟩

/-- A text with a mark in front of its first line and blanks in front of the others. -/
def indented (mark blanks cause : String) : String :=
  mark ++ joined ("\n" ++ blanks) (pieces '\n' cause)

/-- The causes, numbered if there are several. -/
def causeLines : List String → List String
  | [] => []
  | [cause] => [indented "    " "    " cause]
  | causes => causes.zipIdx.map fun (cause, i) =>
    indented ("    " ++ natText i ++ ": ") "       " cause

/-- The failure as it is printed. -/
def text (failure : Failure) : String :=
  "Error: " ++ failure.message ++
    (if failure.causes.isEmpty then ""
      else "\n\nCaused by:\n" ++ joined "\n" (causeLines failure.causes)) ++ "\n"

end Failure

/-- What a command prints, and the code it ends with. -/
structure Outcome where
  exit : Nat
  stdout : String
  stderr : String
  /-- What is worth mending, apart from the answer. -/
  warnings : List String
  deriving DecidableEq, Repr

namespace Outcome

/-- Nothing is printed, and all is well. -/
def silent : Outcome := ⟨0, "", "", []⟩

/-- Lines on the standard output. -/
def answered (lines : List String) : Outcome :=
  { silent with stdout := joined "" (lines.map (· ++ "\n")) }

/-- Lines beside the standard output. -/
def remarked (lines : List String) : Outcome :=
  { silent with stderr := joined "" (lines.map (· ++ "\n")) }

/-- A failure. -/
def failed (failure : Failure) : Outcome :=
  { silent with exit := 1, stderr := failure.text }

/-- One outcome after another, with the graver code. -/
def append (a b : Outcome) : Outcome :=
  ⟨max a.exit b.exit, a.stdout ++ b.stdout, a.stderr ++ b.stderr, a.warnings ++ b.warnings⟩

instance : Append Outcome := ⟨append⟩

/-- A value as one line or, if lines are to be pretty, more. -/
def ofJson (options : OutputOptions) (value : Json) : Outcome :=
  answered [if options.pretty then value.pretty else value.compact]

/-- A page, or the value that says the same. -/
def ofPage (options : OutputOptions) (page : Report.Page) (value : Json) : Outcome :=
  if options.json then ofJson options value else answered [page.text options.color]

end Outcome

/-- What a command comes to. -/
inductive Plan where
  | outcome (outcome : Outcome)
  /-- A file is to be written. `unwritten` is the outcome if it cannot be, for some reason. -/
  | write (path text : String) (written : Outcome) (unwritten : String → Outcome)

namespace Plan

/-- The plan of what may have failed. -/
def ofExcept (result : Except Failure Plan) : Plan :=
  match result with
  | .ok plan => plan
  | .error failure => outcome (.failed failure)

end Plan

end Tariff
