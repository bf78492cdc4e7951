import Tariff.Setup.Basic

/-!
# How answers look

* `OutputFlags.resolve`: what the flags of a command line and the preferences of a setup come to;
  the flags win.
-/

namespace Tariff

/-- The flags of a command line that are about its answer. -/
structure OutputFlags where
  /-- The name of a format. -/
  format : Option String
  json : Bool
  pretty : Bool
  noColor : Bool
  verbose : Bool
  deriving DecidableEq, Repr

/-- How an answer looks. -/
structure OutputOptions where
  /-- Whether it is JSON, and else text. -/
  json : Bool
  /-- Whether JSON is spread over lines. -/
  pretty : Bool
  color : Bool
  verbose : Bool
  deriving DecidableEq, Repr

/-- What the flags come to. A format or a color of any other name is text, or is decided by `auto`:
whether color suits the place that the answer goes to. -/
def OutputFlags.resolve (flags : OutputFlags) (auto : Bool) (preferences : Preferences) :
    OutputOptions where
  json := flags.json || flags.format.getD preferences.format == "json"
  pretty := flags.pretty
  color :=
    !flags.noColor && match preferences.color with
      | "never" => false
      | "always" => true
      | _ => auto
  verbose := flags.verbose

end Tariff
