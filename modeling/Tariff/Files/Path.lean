import Tariff.Text.Pieces

/-!
# Paths

A path is a text of names with slashes between them. It is taken as it is written: nothing is looked
up, and only at its end are empty names and single points skipped.

* `Path.parent?`: the path of the folder that a path leads into.
* `Path.join`: a path seen from another one.
* `setupFolder`, `setupPath`, `pricingPath`: where the program keeps its files.
-/

namespace Tariff.Path

open Text

/-- Whether a name between slashes leads nowhere. -/
def isIdle (name : List Char) : Bool :=
  name == [] || name == ['.']

/-- Whether a path starts at the root. -/
def isAbsolute (path : String) : Bool :=
  path.toList.head? == some '/'

/-- What a path starts with, a root or a point for the current folder, and what follows it. -/
def start : List Char → List Char × List Char
  | '/' :: rest => (['/'], rest)
  | ['.'] => (['.'], [])
  | '.' :: '/' :: rest => (['.'], '/' :: rest)
  | cs => ([], cs)

/-- Names in reverse order, without the idle ones at the end of the path. -/
def settled (names : List (List Char)) : List (List Char) :=
  names.dropWhile isIdle

/-- The path of the folder that a path leads into; the root and the empty path lead into none. -/
def parent? (path : String) : Option String :=
  let (head, body) := start path.toList
  match settled (body.splitOn '/').reverse with
  | [] => if head = ['.'] then some "" else none
  | _ :: names =>
    some (String.ofList (head ++ ['/'].intercalate (settled names).reverse))

/-- The path that `path` is when it is seen from `base`. -/
def join (base path : String) : String :=
  if isAbsolute path || base = "" then path
  else if base.toList.getLast? = some '/' then base ++ path
  else base ++ "/" ++ path

end Tariff.Path

namespace Tariff

/-- The variables of an environment. -/
abbrev Environment := String → Option String

/-- The folder for the files of the program: in the folder that `XDG_CONFIG_HOME` names, even if
that is empty, or else in the home folder. -/
def setupFolder (env : Environment) : String :=
  let base := match env "XDG_CONFIG_HOME" with
    | some folder => folder
    | none =>
      let home := match env "HOME" with
        | none | some "" => "~"
        | some folder => folder
      Path.join home ".config"
  Path.join base "tierprice"

/-- The file for the setup, unless another one is asked for. -/
def setupPath (env : Environment) : String :=
  Path.join (setupFolder env) "config.toml"

/-- The file for tiered pricing that goes with a setup: next to the file of the setup, unless the
setup says where. -/
def pricingPath (env : Environment) (setupFile : String) (file : Option String) :
    String :=
  Path.join ((Path.parent? setupFile).getD (setupFolder env)) (file.getD "pricing.json")

end Tariff
