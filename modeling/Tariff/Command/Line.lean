import Tariff.Command.Grammar
import Tariff.Command.Output
import Tariff.Edit.Fields
import Tariff.Price.Query

/-!
# The commands of the program

* `Command`: what can be asked for. `Invocation`: a command with the options that any command takes.
* `grammarOf`: what each command takes.
* `Invocation.read`: the invocation of a command line.
-/

namespace Tariff

-- Powers are those of the core library.
attribute [local instance (2000)] instPowNat

/-- What is done with tiered pricing. -/
inductive TierCommand where
  | list
  | detail (config : String)
  | change (change : Change)

/-- What is done with the setup. -/
inductive SetupCommand where
  | init
  | check
  | print
  deriving DecidableEq, Repr

/-- What a conversion starts from. -/
inductive ConversionCommand where
  | ofRatio (ratio completion : Float)
  | ofPrice (input : Float) (output : Option Float)
  deriving DecidableEq

/-- What can be asked for. -/
inductive Command where
  | price (query : Query)
  | tiers (model : String) (unit : Option TokenUnit)
  | groups (query : Query)
  | cost (query : Query)
  | convert (conversion : ConversionCommand)
  | setup (command : SetupCommand)
  | tier (command : TierCommand)
  | pull
  | push

/-- A command with the options that any command takes. -/
structure Invocation where
  command : Command
  flags : OutputFlags
  /-- The file of the setup, unless it is the usual one. -/
  setupFile : Option String
  /-- The file with tiered pricing, unless it is the one that goes with the setup. -/
  pricingFile : Option String

namespace Command

open Number

/-! ## Values -/

/-- Any text. -/
def anyText (_ : String) : Bool := true

/-- The path of a file. -/
def isPath (s : String) : Bool :=
  s != ""

/-- A count of 64 bits. -/
def count? (s : String) : Option UInt64 :=
  (natural? s).bind fun n => if n < 2 ^ (64 : Nat) then some (UInt64.ofNat n) else none

/-- A priority, of 64 bits. -/
def priority? (s : String) : Option Int64 :=
  (integer? s).bind fun n =>
    if -2 ^ (63 : Nat) ≤ n ∧ n < 2 ^ (63 : Nat) then some (Int64.ofInt n) else none

/-- On or off. -/
def switch? : String → Option Bool
  | "on" => some true
  | "off" => some false
  | _ => none

/-- Whether a reader takes a text. -/
def readable {α : Type} (read : String → Option α) (s : String) : Bool :=
  (read s).isSome

/-! ## Grammars -/

/-- An option with a value. -/
def valued (name : String) (letter : Option Char) (accepts : String → Bool) : OptionSpec :=
  ⟨name, letter, some accepts⟩

/-- An option without a value. -/
def switch (name : String) (letter : Option Char) : OptionSpec :=
  ⟨name, letter, none⟩

/-- A positional value. -/
def value (name : String) (accepts : String → Bool) : PositionalSpec :=
  ⟨name, accepts, false⟩

/-- The options that any command takes. -/
def commonOptions : List OptionSpec :=
  [valued "format" (some 'f') anyText, switch "json" (some 'j'), switch "pretty" none,
    switch "no-color" none, switch "verbose" (some 'v'), valued "config" none isPath,
    valued "pricing" none isPath, helpSwitch]

/-- The option for a display unit. -/
def unitOption : OptionSpec := valued "unit" (some 'u') (readable TokenUnit.ofLetter?)

/-- The options of a question about prices. -/
def queryOptions : List OptionSpec :=
  [valued "group" (some 'g') anyText, valued "input" (some 'i') (readable count?),
    valued "output" (some 'o') (readable count?), unitOption]

/-- The options that are ratios of a rule. -/
def ratioNames : List String := ["ratio", "completion", "output-ratio"]

/-- The options that are prices of a rule. -/
def priceNames : List String := ["input-price", "output-price"]

/-- The options that are fields of a rule. -/
def ruleOptions : List OptionSpec :=
  valued "name" none anyText ::
    (["min-input", "max-input", "min-output", "max-output"].map (valued · none (readable count?)) ++
      (ratioNames ++ priceNames).map (valued · none (readable float?)) ++ [switch "as-ratio" none])

/-- Ratios and prices exclude each other, and only an input price is kept as a ratio. -/
def ruleAgrees (names : List String) : Bool :=
  !(names.any ratioNames.contains && names.any priceNames.contains) &&
    (!names.contains "as-ratio" || names.contains "input-price")

/-- The grammar of a command that words follow. -/
def words (words : List String) : Grammar :=
  ⟨commonOptions, [], words, fun _ => true⟩

/-- The grammar of a command that takes positional values and options of its own. -/
def leaf (positionals : List PositionalSpec) (options : List OptionSpec) : Grammar :=
  ⟨options ++ commonOptions, positionals, [], fun _ => true⟩

/-- The grammar of a command that takes fields of a rule. -/
def ruleLeaf (positionals : List PositionalSpec) : Grammar :=
  { leaf positionals ruleOptions with agree := ruleAgrees }

/-- The grammar of a question about prices. -/
def queryLeaf : Grammar := leaf [value "model" anyText] queryOptions

/-- A positional value that may be any text. -/
def anyValue (name : String) : PositionalSpec := value name anyText

/-- What the commands about configurations take. -/
def configGrammar : String → Grammar
  | "list" => leaf [] []
  | "add" =>
    { leaf [anyValue "name"] [valued "models" (some 'm') anyText, switch "empty" none] with
      agree := (·.contains "models") }
  | "priority" => leaf [anyValue "name", ⟨"priority", readable priority?, true⟩] []
  | "models" => leaf [anyValue "name", anyValue "models"] []
  | "global" => leaf [value "state" (readable switch?)] []
  | _ => leaf [anyValue "name"] []

/-- What the commands about rules take. -/
def ruleGrammar : String → Grammar
  | "add" => ruleLeaf [anyValue "config"]
  | "edit" => ruleLeaf [anyValue "config", anyValue "rule"]
  | "defaults" => leaf [anyValue "config"] []
  | _ => leaf [anyValue "config", anyValue "rule"] []

/-- What the command of some words takes. -/
def grammarOf : List String → Grammar
  | [] =>
    let program :=
      words ["price", "tiers", "groups", "cost", "convert", "config", "tier-config", "rule", "sync"]
    { program with options := versionSwitch :: program.options }
  | ["tiers"] => leaf [anyValue "model"] [unitOption]
  | ["convert"] => words ["to-price", "to-ratio"]
  | ["convert", "to-price"] =>
    leaf [value "ratio" (readable float?)] [valued "completion" (some 'c') (readable float?)]
  | ["convert", "to-ratio"] =>
    leaf [value "input_price" (readable float?)]
      [valued "output-price" (some 'o') (readable float?)]
  | ["config"] => words ["init", "check", "show"]
  | ["tier-config"] =>
    words
      ["list", "show", "add", "copy", "remove", "enable", "disable", "priority", "models", "global"]
  | ["tier-config", word] => configGrammar word
  | ["rule"] => words ["add", "edit", "remove", "up", "down", "defaults"]
  | ["rule", word] => ruleGrammar word
  | ["sync"] => words ["pull", "push"]
  | [_] => queryLeaf
  | _ => leaf [] []

/-! ## Reading -/

/-- The value of an option as `read` reads it; nothing where the option is not given. -/
def given? {α : Type} (args : Arguments) (name : String) (read : String → Option α) :
    Option (Option α) :=
  match args.value? name with
  | none => some none
  | some s => (read s).map some

/-- A question about prices. -/
def query? (args : Arguments) (model : String) : Option Query := do
  let input ← given? args "input" count?
  let output ← given? args "output" count?
  let unit ← given? args "unit" TokenUnit.ofLetter?
  return ⟨model, (args.value? "group").getD "default", ⟨input.getD 0, output.getD 0⟩, unit⟩

/-- The fields of a rule. -/
def ruleFields? (args : Arguments) : Option RuleFields := do
  return {
    name := args.value? "name"
    minInput := ← given? args "min-input" count?
    maxInput := ← given? args "max-input" count?
    minOutput := ← given? args "min-output" count?
    maxOutput := ← given? args "max-output" count?
    ratio := ← given? args "ratio" float?
    completion := ← given? args "completion" float?
    outputRatio := ← given? args "output-ratio" float?
    inputPrice := ← given? args "input-price" float?
    outputPrice := ← given? args "output-price" float?
    asRatio := args.has "as-ratio" }

/-- A change of a snapshot by a command about configurations. -/
def configEdit? (args : Arguments) : String → List String → Option Edit
  | "add", [name] =>
    (args.value? "models").map fun models =>
      .addConfig name models (if args.has "empty" then some [] else none)
  | "copy", [name] => some (.copyConfig name)
  | "remove", [name] => some (.removeConfig name)
  | "enable", [name] => some (.setConfigEnabled name true)
  | "disable", [name] => some (.setConfigEnabled name false)
  | "priority", [name, priority] => (priority? priority).map (.setPriority name)
  | "models", [name, models] => some (.setModels name models)
  | "global", [state] => (switch? state).map .setEnabled
  | _, _ => none

/-- A command about configurations. -/
def configCommand? (args : Arguments) (word : String) (values : List String) :
    Option TierCommand :=
  match word, values with
  | "list", [] => some .list
  | "show", [name] => some (.detail name)
  | _, _ => (configEdit? args word values).map fun edit => .change (.edit edit)

/-- A command about rules. -/
def ruleCommand? (args : Arguments) : String → List String → Option Change
  | "add", [config] =>
    (ruleFields? args).map fun fields => .edit (.putRule config none (fields.apply .blank))
  | "edit", [config, rule] => (ruleFields? args).map (.fields config rule)
  | "remove", [config, rule] => some (.edit (.removeRule config rule))
  | "up", [config, rule] => some (.edit (.moveRule config rule .up))
  | "down", [config, rule] => some (.edit (.moveRule config rule .down))
  | "defaults", [config] => some (.edit (.resetRules config))
  | _, _ => none

/-- The command of arguments. -/
def ofArguments? (args : Arguments) : Option Command :=
  match args.words, args.positionals with
  | ["price"], [model] => (query? args model).map .price
  | ["tiers"], [model] => (given? args "unit" TokenUnit.ofLetter?).map (.tiers model)
  | ["groups"], [model] => (query? args model).map .groups
  | ["cost"], [model] => (query? args model).map .cost
  | ["convert", "to-price"], [ratio] => do
    let completion ← given? args "completion" float?
    return .convert (.ofRatio (← float? ratio) (completion.getD 1.0))
  | ["convert", "to-ratio"], [input] => do
    return .convert (.ofPrice (← float? input) (← given? args "output-price" float?))
  | ["config", "init"], [] => some (.setup .init)
  | ["config", "check"], [] => some (.setup .check)
  | ["config", "show"], [] => some (.setup .print)
  | ["tier-config", word], values => (configCommand? args word values).map .tier
  | ["rule", word], values =>
    (ruleCommand? args word values).map fun change => .tier (.change change)
  | ["sync", "pull"], [] => some .pull
  | ["sync", "push"], [] => some .push
  | _, _ => none

end Command

open Command in
/-- The invocation of a command line. -/
def Invocation.read (arguments : List String) : Except Stop Invocation :=
  (Arguments.read grammarOf arguments).bind fun args =>
    match ofArguments? args with
    | none => .error .misuse
    | some command =>
      .ok {
        command := command
        flags := {
          format := args.value? "format"
          json := args.has "json"
          pretty := args.has "pretty"
          noColor := args.has "no-color"
          verbose := args.has "verbose" }
        setupFile := args.value? "config"
        pricingFile := args.value? "pricing" }

end Tariff
