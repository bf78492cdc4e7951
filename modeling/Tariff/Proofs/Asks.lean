import Tariff.Proofs.Fields

/-!
# What command lines ask for

The words of a command line about tiered pricing, its positional values and its options stand for a
question, or for what the editor is to do.

* `Arguments.Says`: the words and positional values of arguments.
* `Asks`: what arguments ask for, one case a command.
* `Command.ofArguments?_eq_tier_iff`: arguments are taken for a command about tiered pricing exactly
  if they ask for it.
* `Asks.storable`: what is asked for with finite numbers can be stored.
-/

namespace Tariff

open Command

variable {args : Arguments} {command : TierCommand}

/-- The words and the positional values of arguments. -/
def Command.Arguments.Says (args : Arguments) (words positionals : List String) : Prop :=
  args.words = words ∧ args.positionals = positionals

/-- What arguments about tiered pricing ask for. -/
inductive Asks (args : Arguments) : TierCommand → Prop where
  | list (hsaid : args.Says ["tier-config", "list"] []) : Asks args .list
  | detail {name : String} (hsaid : args.Says ["tier-config", "show"] [name]) :
    Asks args (.detail name)
  /-- A new configuration with the rules of the template. -/
  | add {name models : String} (hsaid : args.Says ["tier-config", "add"] [name])
      (hmodels : args.value? "models" = some models) (hrules : args.has "empty" = false) :
    Asks args (.change (.edit (.addConfig name models none)))
  /-- A new configuration without rules. -/
  | addEmpty {name models : String} (hsaid : args.Says ["tier-config", "add"] [name])
      (hmodels : args.value? "models" = some models) (hrules : args.has "empty" = true) :
    Asks args (.change (.edit (.addConfig name models (some []))))
  | copy {name : String} (hsaid : args.Says ["tier-config", "copy"] [name]) :
    Asks args (.change (.edit (.copyConfig name)))
  | remove {name : String} (hsaid : args.Says ["tier-config", "remove"] [name]) :
    Asks args (.change (.edit (.removeConfig name)))
  | enable {name : String} (hsaid : args.Says ["tier-config", "enable"] [name]) :
    Asks args (.change (.edit (.setConfigEnabled name true)))
  | disable {name : String} (hsaid : args.Says ["tier-config", "disable"] [name]) :
    Asks args (.change (.edit (.setConfigEnabled name false)))
  | priority {name text : String} {priority : Int64}
      (hsaid : args.Says ["tier-config", "priority"] [name, text])
      (hpriority : priority? text = some priority) :
    Asks args (.change (.edit (.setPriority name priority)))
  | models {name models : String} (hsaid : args.Says ["tier-config", "models"] [name, models]) :
    Asks args (.change (.edit (.setModels name models)))
  | globalOn (hsaid : args.Says ["tier-config", "global"] ["on"]) :
    Asks args (.change (.edit (.setEnabled true)))
  | globalOff (hsaid : args.Says ["tier-config", "global"] ["off"]) :
    Asks args (.change (.edit (.setEnabled false)))
  /-- A rule at the end, with the given fields over those of a new one. -/
  | addRule {config : String} {given : RuleFields} (hsaid : args.Says ["rule", "add"] [config])
      (hgiven : ruleFields? args = some given) :
    Asks args (.change (.edit (.putRule config none (given.apply .blank))))
  /-- The given fields over those of a rule that is there. -/
  | editRule {config rule : String} {given : RuleFields}
      (hsaid : args.Says ["rule", "edit"] [config, rule])
      (hgiven : ruleFields? args = some given) :
    Asks args (.change (.fields config rule given))
  | removeRule {config rule : String} (hsaid : args.Says ["rule", "remove"] [config, rule]) :
    Asks args (.change (.edit (.removeRule config rule)))
  | up {config rule : String} (hsaid : args.Says ["rule", "up"] [config, rule]) :
    Asks args (.change (.edit (.moveRule config rule .up)))
  | down {config rule : String} (hsaid : args.Says ["rule", "down"] [config, rule]) :
    Asks args (.change (.edit (.moveRule config rule .down)))
  | defaults {config : String} (hsaid : args.Says ["rule", "defaults"] [config]) :
    Asks args (.change (.edit (.resetRules config)))

/-! ## Reading -/

theorem switch?_eq_some_iff {state : String} {on : Bool} :
    switch? state = some on ↔ state = if on then "on" else "off" := by
  unfold switch?
  split <;> cases on <;> simp_all

theorem asks_of_configEdit? {word : String} {values : List String} {edit : Edit}
    (hsaid : args.Says ["tier-config", word] values)
    (h : configEdit? args word values = some edit) : Asks args (.change (.edit edit)) := by
  unfold configEdit? at h
  split at h
  case h_1 name =>
    obtain ⟨models, hmodels, rfl⟩ := Option.map_eq_some_iff.mp h
    cases hrules : args.has "empty" with
    | false => exact .add hsaid hmodels hrules
    | true => exact .addEmpty hsaid hmodels hrules
  case h_2 name => cases h; exact .copy hsaid
  case h_3 name => cases h; exact .remove hsaid
  case h_4 name => cases h; exact .enable hsaid
  case h_5 name => cases h; exact .disable hsaid
  case h_6 name text =>
    obtain ⟨priority, hpriority, rfl⟩ := Option.map_eq_some_iff.mp h
    exact .priority hsaid hpriority
  case h_7 name models => cases h; exact .models hsaid
  case h_8 state =>
    obtain ⟨on, hon, rfl⟩ := Option.map_eq_some_iff.mp h
    rw [switch?_eq_some_iff] at hon
    subst hon
    cases on with
    | false => exact .globalOff hsaid
    | true => exact .globalOn hsaid
  case h_9 => cases h

theorem asks_of_configCommand? {word : String} {values : List String}
    (hsaid : args.Says ["tier-config", word] values)
    (h : configCommand? args word values = some command) : Asks args command := by
  unfold configCommand? at h
  split at h
  case h_1 => cases h; exact .list hsaid
  case h_2 name => cases h; exact .detail hsaid
  case h_3 =>
    obtain ⟨edit, hedit, rfl⟩ := Option.map_eq_some_iff.mp h
    exact asks_of_configEdit? hsaid hedit

theorem asks_of_ruleCommand? {word : String} {values : List String} {change : Change}
    (hsaid : args.Says ["rule", word] values) (h : ruleCommand? args word values = some change) :
    Asks args (.change change) := by
  unfold ruleCommand? at h
  split at h
  case h_1 config =>
    obtain ⟨given, hgiven, rfl⟩ := Option.map_eq_some_iff.mp h
    exact .addRule hsaid hgiven
  case h_2 config rule =>
    obtain ⟨given, hgiven, rfl⟩ := Option.map_eq_some_iff.mp h
    exact .editRule hsaid hgiven
  case h_3 config rule => cases h; exact .removeRule hsaid
  case h_4 config rule => cases h; exact .up hsaid
  case h_5 config rule => cases h; exact .down hsaid
  case h_6 config => cases h; exact .defaults hsaid
  case h_7 => cases h

/-- Arguments are taken for a command about tiered pricing exactly if they ask for it. -/
theorem Command.ofArguments?_eq_tier_iff :
    ofArguments? args = some (.tier command) ↔ Asks args command := by
  constructor
  · intro h
    unfold ofArguments? at h
    split at h
    -- The words of configurations and those of rules; all others are for other commands.
    case h_10 word hwords =>
      obtain ⟨_, hconfig, ⟨⟩⟩ := Option.map_eq_some_iff.mp h
      exact asks_of_configCommand? ⟨hwords, rfl⟩ hconfig
    case h_11 word hwords =>
      obtain ⟨change, hrule, ⟨⟩⟩ := Option.map_eq_some_iff.mp h
      exact asks_of_ruleCommand? ⟨hwords, rfl⟩ hrule
    all_goals simp [Option.map_eq_some_iff, Option.bind_eq_some_iff] at h
  · intro h
    unfold ofArguments?
    -- What is said picks the branch of the reader, and what is given is what it finds there.
    cases h
    all_goals
      obtain ⟨_, _⟩ := ‹args.Says _ _›
      simp [configCommand?, configEdit?, ruleCommand?, switch?, *]

/-- A command line brings no rules along, and no numbers but those of its fields. -/
theorem Asks.storable (h : Asks args command)
    (hfinite : ∀ given, ruleFields? args = some given → ∀ x ∈ given.numbers, x.isFinite = true) :
    command.Storable := by
  cases h with
  | list | detail => trivial
  | addEmpty =>
    refine ⟨fun name' models' rules heq => .inl ?_, List.forall_mem_nil _⟩
    cases heq
    rfl
  | addRule hsaid hgiven =>
    have hblank : ∀ x ∈ RuleDraft.blank.pricing.numbers, x.isFinite = true := by decide
    refine ⟨nofun, fun x hx => ?_⟩
    exact RuleFields.isFinite_pricing (hfinite _ hgiven) hblank x (mem_numbers_of_mem_entered hx)
  | editRule hsaid hgiven => exact hfinite _ hgiven
  | _ => exact ⟨nofun, List.forall_mem_nil _⟩

end Tariff
