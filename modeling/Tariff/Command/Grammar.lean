import Tariff.Number.Reading

/-!
# Command lines

The arguments of a program select a command, word by word, and give it options and positional
values. What a command takes is its `Grammar`. Some options may stand behind any word of the
command; each of them may be given once behind every word, and the one furthest behind counts.

* `Arguments.add`: one more argument.
* `Arguments.finish`: the arguments as a whole.
* `Stop`: how reading arguments can end early.
-/

namespace Tariff.Command

open Number

/-- An option. -/
structure OptionSpec where
  /-- The name behind two dashes. -/
  name : String
  /-- The letter behind one dash. -/
  letter : Option Char
  /-- Which values the option takes, unless it is a switch. -/
  values : Option (String → Bool)

/-- A positional value. -/
structure PositionalSpec where
  name : String
  /-- Which values are taken. -/
  accepts : String → Bool
  /-- Whether what looks like a negative number is a value here, and no option. -/
  negative : Bool

/-- What a command takes. -/
structure Grammar where
  options : List OptionSpec
  positionals : List PositionalSpec
  /-- The words that may follow; if there are any, one must. -/
  words : List String
  /-- Whether options of these names go together. -/
  agree : List String → Bool

/-- How reading arguments can end early. -/
inductive Stop where
  /-- The arguments are not in order. -/
  | misuse
  /-- Help is asked for. -/
  | help
  /-- The version is asked for. -/
  | version
  deriving DecidableEq, Repr

/-- An option that is given: its name and its value, which is empty for a switch. -/
abbrev Given := String × String

/-- The switch for help, which every command has. -/
def helpSwitch : OptionSpec := ⟨"help", some 'h', none⟩

/-- The switch for the version. -/
def versionSwitch : OptionSpec := ⟨"version", some 'V', none⟩

/-- The word for help about other words. -/
def helpWord : String := "help"

/-- Arguments that are partly read. -/
structure Arguments where
  /-- The words of the command so far. -/
  words : List String
  /-- The options given behind earlier words. -/
  outer : List Given
  /-- The options given behind the last word. -/
  own : List Given
  positionals : List String
  /-- An option that waits for its value. -/
  waiting : Option OptionSpec
  /-- Whether only positional values may follow. -/
  closed : Bool
  /-- Whether help about the words is asked for. -/
  helping : Bool

namespace Arguments

/-- No arguments. -/
def empty : Arguments := ⟨[], [], [], [], none, false, false⟩

/-- All options given, in order. -/
def given (args : Arguments) : List Given :=
  args.outer ++ args.own

/-- The value of an option; the last one counts. -/
def value? (args : Arguments) (name : String) : Option String :=
  (args.given.reverse.find? (·.1 == name)).map (·.2)

/-- Whether an option is given. -/
def has (args : Arguments) (name : String) : Bool :=
  (args.value? name).isSome

/-- Goes on behind one more word. -/
def enter (args : Arguments) (word : String) : Arguments :=
  { args with words := args.words ++ [word], outer := args.given, own := [] }

/-- Takes in an option; it must not have been given behind this word. -/
def give (args : Arguments) (name value : String) : Except Stop Arguments :=
  if args.own.any (·.1 == name) then .error .misuse
  else .ok { args with own := args.own ++ [(name, value)], waiting := none }

/-- Takes in an option that has a value. -/
def giveValue (args : Arguments) (option : OptionSpec) (value : String) : Except Stop Arguments :=
  if option.values.any (· value) then args.give option.name value else .error .misuse

/-- Takes in a switch; none of them may stand where a value is due. -/
def giveSwitch (args : Arguments) (option : OptionSpec) : Except Stop Arguments :=
  if args.waiting.isSome then .error .misuse
  else if option.name = helpSwitch.name then .error .help
  else if option.name = versionSwitch.name then .error .version
  else args.give option.name ""

/-- Takes in an option whose value is still due. -/
def await (args : Arguments) (option : OptionSpec) : Except Stop Arguments :=
  if args.waiting.isSome then .error .misuse else .ok { args with waiting := some option }

/-- Takes in an option whose value stands with it. -/
def giveAttached (args : Arguments) (option : OptionSpec) (value : String) :
    Except Stop Arguments :=
  if args.waiting.isSome then .error .misuse else args.giveValue option value

/-- Takes in a positional value. -/
def position (args : Arguments) (grammar : Grammar) (value : String) : Except Stop Arguments :=
  match grammar.positionals[args.positionals.length]? with
  | some spec =>
    if args.waiting.isNone && spec.accepts value then
      .ok { args with positionals := args.positionals ++ [value] }
    else .error .misuse
  | none => .error .misuse

/-- Takes in what is no option: the value of an option that waits for it, or a positional value. -/
def plain (args : Arguments) (grammar : Grammar) (arg : String) : Except Stop Arguments :=
  match args.waiting with
  | some option => args.giveValue option arg
  | none => args.position grammar arg

/-- Takes in what follows two dashes: a name, with or without a value behind an equals sign. -/
def long (args : Arguments) (grammar : Grammar) (body : List Char) : Except Stop Arguments :=
  let name := String.ofList (body.takeWhile (· != '='))
  match grammar.options.find? (·.name == name), body.dropWhile (· != '=') with
  | none, _ => .error .misuse
  | some option, [] => if option.values.isSome then args.await option else args.giveSwitch option
  | some option, _ :: value => args.giveAttached option (String.ofList value)

/-- Takes in what follows one dash: switches, and then an option whose value is the rest, with or
without an equals sign, or is still due. -/
def letters (grammar : Grammar) : Arguments → List Char → Except Stop Arguments
  | args, [] => .ok args
  | args, c :: rest =>
    match grammar.options.find? (·.letter == some c) with
    | none => .error .misuse
    | some option =>
      if option.values.isNone then
        (args.giveSwitch option).bind fun args => letters grammar args rest
      else
        match rest with
        | [] => args.await option
        | '=' :: value => args.giveAttached option (String.ofList value)
        | value => args.giveAttached option (String.ofList value)

/-- Whether what follows a dash makes it a negative number. -/
def isNumber (cs : List Char) : Bool :=
  let whole := cs.takeWhile Text.isDigit
  let rest := cs.dropWhile Text.isDigit
  let tail := match rest with
    | '.' :: places => places.dropWhile Text.isDigit
    | rest => rest
  whole != [] && match tail with
    | [] => true
    | 'e' :: power => power != [] && power.all Text.isDigit
    | _ => false

/-- Whether a negative number would be a positional value here. -/
def takesNegative (args : Arguments) (grammar : Grammar) : Bool :=
  (grammar.positionals[args.positionals.length]?).any (·.negative)

/-- Takes in an argument that may be an option. -/
def addOpen (args : Arguments) (grammar : Grammar) (arg : String) : Except Stop Arguments :=
  match arg.toList with
  | ['-', '-'] => .ok { args with closed := true }
  | '-' :: '-' :: body => args.long grammar body
  | '-' :: c :: cs =>
    if args.takesNegative grammar && isNumber (c :: cs) then args.plain grammar arg
    else letters grammar args (c :: cs)
  | _ => args.plain grammar arg

/-- Takes in an argument, of a program whose commands have the given grammars. -/
def add (grammarOf : List String → Grammar) (args : Arguments) (arg : String) :
    Except Stop Arguments :=
  let grammar := grammarOf args.words
  if args.helping then
    if grammar.words.contains arg then .ok (args.enter arg) else .error .misuse
  else if args.closed then args.position grammar arg
  else if args.waiting.isNone && grammar.words.contains arg then .ok (args.enter arg)
  else if args.waiting.isNone && !grammar.words.isEmpty && arg == helpWord then
    .ok { args with helping := true }
  else args.addOpen grammar arg

/-- The arguments as a whole: no value is due, all words and positional values are there, and the
options go together. -/
def finish (grammarOf : List String → Grammar) (args : Arguments) : Except Stop Arguments :=
  let grammar := grammarOf args.words
  if args.helping then .error .help
  else if args.waiting.isNone && grammar.words.isEmpty &&
      args.positionals.length == grammar.positionals.length &&
      grammar.agree (args.own.map (·.1)) then .ok args
  else .error .misuse

/-- Reads all arguments. -/
def read (grammarOf : List String → Grammar) (arguments : List String) : Except Stop Arguments :=
  (arguments.foldlM (add grammarOf) empty).bind (finish grammarOf)

end Arguments

end Tariff.Command
