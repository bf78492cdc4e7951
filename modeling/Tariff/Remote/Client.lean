import Tariff.Files.Path
import Tariff.Remote.Endpoint
import Tariff.Remote.Options
import Tariff.Setup.Basic

/-!
# Exchanging with the settings service

The settings service is asked for its options, or told to keep some, by requests. How these travel
is left open: a service is known by what comes back for a request.

* `Endpoint`: where requests go to, and who makes them. `RemoteSetup.endpoint`: the endpoint of a
  setup, or why there is none that may be used.
* `Service`: what comes back for a request, if anything does.
* `Service.reply`: what the service says about a request, or why that is not known.
* `pull`, `push`: what comes of getting and of sending a snapshot.
-/

namespace Tariff

open Text

/-! ## Failures -/

/-- Why an exchange fails. -/
inductive ExchangeError where
  /-- No endpoint is set. -/
  | noEndpoint
  | endpoint (fault : EndpointFault)
  /-- Nothing comes back when the options are asked for. -/
  | notAsked
  /-- Nothing comes back when an option is sent. -/
  | notSent (key : String)
  /-- The access token is not taken. -/
  | unauthorized
  /-- Another status than that of success comes back, with a text. -/
  | badStatus (status : Nat) (text : String)
  /-- What comes back is not understood. -/
  | unreadable
  /-- The options are not given. -/
  | refused (message : String)
  /-- The options that come back make up no snapshot. -/
  | badOptions (fault : Fault)
  /-- An option is not kept. -/
  | notKept (key message : String)
  deriving DecidableEq, Repr

def ExchangeError.message : ExchangeError → String
  | noEndpoint => "remote.base_url is not set in the config file"
  | endpoint fault => fault.message
  | notAsked => "Failed to send request to settings endpoint"
  | notSent key => "Failed to send update for " ++ key
  | unauthorized => "Unauthorized - check the access token"
  | badStatus status text => "HTTP " ++ natText status ++ " from settings endpoint: " ++ text
  | unreadable => "Failed to parse settings response"
  | refused message => "Settings endpoint refused request: " ++ message
  | badOptions _ => optionsFailure
  | notKept key message => "Failed to save " ++ key ++ ": " ++ message

/-! ## Requests -/

/-- Where requests go to, and who makes them. -/
structure Endpoint where
  /-- The address, without slashes at its end. -/
  url : String
  token : Option String
  userId : Option UInt64
  deriving DecidableEq, Repr

/-- The endpoint of a setup, if it may be used; the token is in the environment. -/
def RemoteSetup.endpoint (remote : RemoteSetup) (env : Environment := fun _ => none) :
    Except ExchangeError Endpoint :=
  match remote.baseUrl with
  | none => .error .noEndpoint
  | some url =>
    match endpointFault? url with
    | none =>
      .ok ⟨String.ofList ((url.toList.reverse.dropWhile (· == '/')).reverse),
        (env remote.tokenVariable).filter (· != ""), remote.userId⟩
    | some fault => .error (.endpoint fault)

/-- A request about the options of the service. -/
structure Request where
  url : String
  headers : List (String × String)
  /-- The option to be kept; without one, all are asked for. -/
  option : Option OptionEntry

namespace Endpoint

/-- What every request says about its answer and its maker. -/
def headers (endpoint : Endpoint) : List (String × String) :=
  ("Accept", "application/json") ::
    ((endpoint.token.map fun token => ("Authorization", "Bearer " ++ token)).toList ++
      (endpoint.userId.map fun id => ("New-Api-User", natText id.toNat)).toList)

/-- The request for all options, or to keep one. -/
def request (endpoint : Endpoint) (option : Option OptionEntry) : Request :=
  ⟨endpoint.url ++ "/api/option/", endpoint.headers, option⟩

end Endpoint

/-! ## Replies -/

/-- What comes back for a request. -/
structure Response where
  status : Nat
  text : String
  deriving DecidableEq, Repr

/-- The settings service, as far as a run knows it: what comes back for a request, if anything does.
No run makes a request twice. -/
abbrev Service := Request → Option Response

/-- A service that is out of reach. -/
def Service.silent : Service := fun _ => none

/-- The text of a response, if its status is that of success. -/
def Response.accepted (response : Response) : Except ExchangeError String :=
  if response.status = 401 then .error .unauthorized
  else if 200 ≤ response.status ∧ response.status < 300 then .ok response.text
  else .error (.badStatus response.status response.text)

/-- What the service says about a request. -/
structure Reply where
  success : Bool
  message : String
  options : List OptionEntry

namespace Reply

/-- The fields of a reply about an option that was sent. -/
def ackFields : List (Field Reply) :=
  [(Field.of "success" (·.asFlag) fun v r => { r with success := v }).needed,
    .of "message" (·.asText) fun v r => { r with message := v }]

/-- The fields of a reply with options. -/
def optionFields : List (Field Reply) :=
  ackFields ++
    [.of "data" (·.asList (OptionEntry.readAt 3)) fun v r => { r with options := v }]

/-- Reads a reply. -/
def read (fields : List (Field Reply)) (text : String) : Except ExchangeError Reply :=
  (Json.decode (readRecord .json fields ⟨false, "", []⟩) text).mapError fun _ => .unreadable

end Reply

/-- What the service says about a request; `unanswered` is the failure if nothing comes back. -/
def Service.reply (service : Service) (request : Request) (unanswered : ExchangeError)
    (fields : List (Field Reply)) : Except ExchangeError Reply :=
  match service request with
  | none => .error unanswered
  | some response => response.accepted.bind (Reply.read fields)

/-! ## Snapshots -/

/-- Gets the snapshot of the service. -/
def pull (endpoint : Endpoint) (service : Service := .silent) : Except ExchangeError Snapshot := do
  let reply ← service.reply (endpoint.request none) .notAsked Reply.optionFields
  if reply.success then (Snapshot.ofOptions reply.options).mapError .badOptions
  else .error (.refused reply.message)

/-- Sends an option to the service. -/
def Endpoint.send (endpoint : Endpoint) (service : Service) (option : OptionEntry) :
    Except ExchangeError Unit := do
  let reply ← service.reply (endpoint.request (some option)) (.notSent option.key) Reply.ackFields
  if reply.success then .ok () else .error (.notKept option.key reply.message)

/-- Sends a snapshot to the service, option by option. -/
def push (endpoint : Endpoint) (snapshot : Snapshot) (service : Service := .silent) :
    Except ExchangeError Unit :=
  snapshot.options.forM (endpoint.send service)

end Tariff
