import Tariff.Edit.Draft
import Tariff.Tier.Snapshot

/-!
# Edits of snapshots

Every edit gives a new snapshot, or says why it is refused.

* `Edit`: the edits. `Edit.apply`: what each does.
* `Snapshot.nextPriority`: above all priorities in use, and above zero.
* Names of configurations are trimmed when they are given, and compared as they are.
-/

namespace Tariff

open Text

/-- Which way to move a rule within its list. -/
inductive Direction where
  | up
  | down
  deriving DecidableEq, Repr

/-- An edit of a snapshot. -/
inductive Edit where
  /-- Switches tiered pricing as a whole. -/
  | setEnabled (enabled : Bool)
  /-- Adds an enabled configuration that is tried before all others, with some rules or the
  template. -/
  | addConfig (name models : String) (rules : Option (List Rule))
  /-- Copies a configuration under a name of its own, to be tried before all others. -/
  | copyConfig (name : String)
  | removeConfig (name : String)
  | setConfigEnabled (name : String) (enabled : Bool)
  | setPriority (name : String) (priority : Int64)
  | setModels (name models : String)
  /-- Appends a rule, or puts it in the place of the one at an index. -/
  | putRule (config : String) (index : Option Nat) (draft : RuleDraft)
  /-- Puts a rule in the place of the first one of a name. -/
  | replaceRule (config rule : String) (draft : RuleDraft)
  | removeRule (config rule : String)
  /-- Exchanges a rule with its neighbour; at the end of the list nothing changes. -/
  | moveRule (config rule : String) (direction : Direction)
  /-- Puts the template in the place of all rules. -/
  | resetRules (config : String)

/-- Exchanges the element at an index with the next one, if both are there. -/
def swapNext {α : Type} : Nat → List α → List α
  | 0, a :: b :: rest => b :: a :: rest
  | index + 1, a :: rest => a :: swapNext index rest
  | _, rest => rest

namespace TierConfig

/-- The place of the first rule of a name. -/
def ruleIndex? (config : TierConfig) (rule : String) : Option Nat :=
  config.rules.findIdx? (·.name == rule)

/-- Whether a rule other than the one at `index` has a name. -/
def clashes (config : TierConfig) (index : Option Nat) (rule : String) : Bool :=
  config.rules.zipIdx.any fun (r, i) => r.name == rule && some i != index

/-- Appends a rule, or puts it in the place of the one at an index. -/
def putRule (config : TierConfig) (name : String) (index : Option Nat) (rule : Rule) :
    Except EditError TierConfig :=
  if config.clashes index rule.name then .error (.duplicateRule name rule.name)
  else
    match index with
    | none => .ok { config with rules := config.rules ++ [rule] }
    | some i =>
      if i < config.rules.length then .ok { config with rules := config.rules.set i rule }
      else .error (.unknownRule name ("#" ++ natText i))

/-- Exchanges the rule at an index with its neighbour, if it has one on that side. -/
def moveRule (config : TierConfig) (index : Nat) : Direction → TierConfig
  | .up => if index = 0 then config else { config with rules := swapNext (index - 1) config.rules }
  | .down => { config with rules := swapNext index config.rules }

end TierConfig

namespace Snapshot

/-- A configuration, by name. -/
def config (snapshot : Snapshot) (name : String) : Except EditError TierConfig :=
  match snapshot.configs.get? name with
  | some config => .ok config
  | none => .error (.unknownConfig name)

/-- The snapshot with a configuration under a name. -/
def withConfig (snapshot : Snapshot) (name : String) (config : TierConfig) : Snapshot :=
  { snapshot with configs := snapshot.configs.insert name config }

/-- Changes a configuration. -/
def change (snapshot : Snapshot) (name : String)
    (change : TierConfig → Except EditError TierConfig) : Except EditError Snapshot :=
  (snapshot.config name).bind fun config => (change config).map (snapshot.withConfig name)

/-- The place of the first rule of a name in a configuration. -/
def ruleIndex (snapshot : Snapshot) (config rule : String) : Except EditError Nat :=
  (snapshot.config config).bind fun c =>
    match c.ruleIndex? rule with
    | some index => .ok index
    | none => .error (.unknownRule config rule)

/-- One more than the largest priority in use, and than zero. -/
def nextPriority (snapshot : Snapshot) : Int64 :=
  snapshot.configs.entries.foldl (fun greatest e => max greatest e.2.priority) 0 + 1

/-- The name of the copy of a configuration. -/
def copyName (name : String) : String :=
  name ++ "_copy"

/-- Reads patterns for an edit. -/
def parseModels (models : String) : Except EditError ModelPatterns :=
  (ModelPatterns.parse models).mapError .pattern

def addConfig (snapshot : Snapshot) (name models : String) (rules : Option (List Rule)) :
    Except EditError Snapshot :=
  let name := trimmed name
  if name = "" then .error .emptyConfigName
  else if snapshot.configs.contains name then .error (.duplicateConfig name)
  else
    (parseModels models).map fun patterns =>
      snapshot.withConfig name ⟨true, patterns, snapshot.nextPriority, rules.getD defaultRules⟩

def copyConfig (snapshot : Snapshot) (name : String) : Except EditError Snapshot :=
  (snapshot.config name).bind fun config =>
    if snapshot.configs.contains (copyName name) then .error (.duplicateConfig (copyName name))
    else
      .ok (snapshot.withConfig (copyName name)
        { config with priority := max (config.priority + 1) snapshot.nextPriority })

def removeConfig (snapshot : Snapshot) (name : String) : Except EditError Snapshot :=
  (snapshot.config name).map fun _ => { snapshot with configs := snapshot.configs.erase name }

def setModels (snapshot : Snapshot) (name models : String) : Except EditError Snapshot :=
  (parseModels models).bind fun patterns =>
    snapshot.change name fun c => .ok { c with models := patterns }

def putRule (snapshot : Snapshot) (config : String) (index : Option Nat) (draft : RuleDraft)
    (basis : Basis) : Except EditError Snapshot :=
  (draft.rule basis).bind fun rule => snapshot.change config (·.putRule config index rule)

def replaceRule (snapshot : Snapshot) (config rule : String) (draft : RuleDraft) (basis : Basis) :
    Except EditError Snapshot :=
  (snapshot.ruleIndex config rule).bind fun index =>
    snapshot.putRule config (some index) draft basis

def removeRule (snapshot : Snapshot) (config rule : String) : Except EditError Snapshot :=
  (snapshot.ruleIndex config rule).bind fun index =>
    snapshot.change config fun c => .ok { c with rules := c.rules.eraseIdx index }

def moveRule (snapshot : Snapshot) (config rule : String) (direction : Direction) :
    Except EditError Snapshot :=
  (snapshot.ruleIndex config rule).bind fun index =>
    snapshot.change config fun c => .ok (c.moveRule index direction)

end Snapshot

/-- What an edit makes of a snapshot; `basis` turns entered prices into ratios. -/
def Edit.apply (basis : Basis) (snapshot : Snapshot) : Edit → Except EditError Snapshot
  | setEnabled enabled => .ok { snapshot with enabled := enabled }
  | addConfig name models rules => snapshot.addConfig name models rules
  | copyConfig name => snapshot.copyConfig name
  | removeConfig name => snapshot.removeConfig name
  | setConfigEnabled name enabled => snapshot.change name fun c => .ok { c with enabled := enabled }
  | setPriority name priority => snapshot.change name fun c => .ok { c with priority := priority }
  | setModels name models => snapshot.setModels name models
  | putRule config index draft => snapshot.putRule config index draft basis
  | replaceRule config rule draft => snapshot.replaceRule config rule draft basis
  | removeRule config rule => snapshot.removeRule config rule
  | moveRule config rule direction => snapshot.moveRule config rule direction
  | resetRules config => snapshot.change config fun c => .ok { c with rules := defaultRules }

end Tariff
