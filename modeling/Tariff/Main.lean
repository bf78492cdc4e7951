import Tariff.Command.Run

/-!
# The program

Reads the files that a command needs, does what is planned, and prints the outcome. It opens no
connections: nothing comes back from the settings service.
-/

namespace Tariff

/-- The environment variables that the program knows. -/
def environment : IO Environment := do
  let home ← IO.getEnv "HOME"
  let setupHome ← IO.getEnv "XDG_CONFIG_HOME"
  return fun name =>
    match name with
    | "HOME" => home
    | "XDG_CONFIG_HOME" => setupHome
    | _ => none

/-- What is found where a path leads. -/
def lookUp (path : String) : IO Contents := do
  try
    match String.fromUTF8? (← IO.FS.readBinFile path) with
    | some s => return .text s
    | none => return .unreadable "stream did not contain valid UTF-8"
  catch error =>
    match error with
    | .noFileOrDirectory .. => return .missing
    | error => return .unreadable error.toString

/-- The two files of an invocation. -/
def filesOf (invocation : Invocation) (env : Environment) : IO (String → Contents) := do
  let setupFile := invocation.setupPath env
  let setup ← lookUp setupFile
  let pricing ← lookUp (invocation.pricingPathFor env setup)
  return fun path => if path = setupFile then setup else pricing

/-- Writes a file, and makes the folders that are missing on the way to it. -/
def save (path text : String) : IO Unit := do
  match Path.parent? path with
  | none => throw (.userError "the path leads into no folder")
  | some "" => IO.FS.writeFile path text
  | some folder =>
    IO.FS.createDirAll folder
    IO.FS.writeFile path text

/-- Does what is planned. -/
def perform : Plan → IO Outcome
  | .outcome outcome => return outcome
  | .write path text written unwritten => do
    try
      save path text
      return written
    catch error => return unwritten error.toString

/-- Prints an outcome. -/
def printOutcome (outcome : Outcome) : IO UInt32 := do
  for warning in outcome.warnings do
    IO.eprintln (" WARN " ++ warning)
  IO.print outcome.stdout
  IO.eprint outcome.stderr
  return UInt32.ofNat outcome.exit

end Tariff

open Tariff in
/-- The program `tierprice`. -/
def main (arguments : List String) : IO UInt32 := do
  let env ← environment
  let auto := (← (← IO.getStdout).isTty) && (← IO.getEnv "NO_COLOR").isNone
  let look ← match Invocation.read arguments with
    | .ok invocation => filesOf invocation env
    | .error _ => pure fun _ => .missing
  printOutcome (← perform (plan arguments auto env look .silent))
