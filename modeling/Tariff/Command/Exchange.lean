import Tariff.Command.Context
import Tariff.Edit.Audit
import Tariff.Remote.Client

/-!
# Commands about the settings service

* `Context.pull`: takes over the tiered pricing of the service.
* `Context.push`: hands tiered pricing over to the service, if there is nothing to mend in it.
-/

namespace Tariff

open Text

/-- A failed exchange as a failure. -/
def ExchangeError.failure (error : ExchangeError) : Failure :=
  match error with
  | endpoint fault => ⟨error.message, fault.causes⟩
  | badOptions fault => ⟨error.message, fault.message?.toList⟩
  | _ => .plain error.message

namespace Context

/-- A count of configurations, and a path, in words. -/
def moved (verb : String) (snapshot : Snapshot) (preposition path : String) : String :=
  let count := snapshot.configs.size
  verb ++ " " ++ natText count ++ " tier config" ++ (if count = 1 then "" else "s") ++ " " ++
    preposition ++ " " ++ path

/-- Takes over the tiered pricing of the service. What is worth mending in it is said even if it
cannot be saved. -/
def pull (context : Context) (env : Environment) (service : Service) : Except Failure Plan := do
  let endpoint ← (context.setup.remote.endpoint env).mapError ExchangeError.failure
  let snapshot ← (Tariff.pull endpoint service).mapError ExchangeError.failure
  let warnings := snapshot.issues.map (·.message)
  let answer :=
    if context.options.json then Outcome.ofJson context.options snapshot.json
    else .answered [moved "Pulled" snapshot "into" context.pricingFile]
  return .write context.pricingFile snapshot.toText { answer with warnings := warnings }
    fun reason => { context.unsaved reason with warnings := warnings }

/-- Why tiered pricing is not handed over. -/
def refusal (issues : List Issue) : Outcome :=
  { Outcome.remarked ("Refusing to push, tier pricing has issues:" ::
      issues.map fun issue => "  - " ++ issue.message) with
    exit := 1 }

/-- Hands tiered pricing over to the service. -/
def push (context : Context) (env : Environment) (service : Service) (pricing : Contents) :
    Except Failure Outcome := do
  let endpoint ← (context.setup.remote.endpoint env).mapError ExchangeError.failure
  let snapshot ← context.snapshot pricing
  if !snapshot.issues.isEmpty then return refusal snapshot.issues
  else
    (Tariff.push endpoint snapshot service).mapError ExchangeError.failure
    return if context.options.json then .ofJson context.options snapshot.json
      else .answered [moved "Pushed" snapshot "from" context.pricingFile]

end Context

end Tariff
