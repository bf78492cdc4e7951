import Tariff.Url.Basic

/-!
# Endpoints of the settings service

* `endpointFault?`: what is wrong with an endpoint. It must be encrypted, unless it is on this
  machine.
-/

namespace Tariff

/-- Why an endpoint is refused. -/
inductive EndpointFault where
  | noUrl (text : String) (cause : Url.UrlFault)
  | notEncrypted (text : String)
  deriving DecidableEq, Repr

def EndpointFault.message : EndpointFault → String
  | noUrl text _ => "invalid URL: " ++ text
  | notEncrypted text => "endpoint must use HTTPS, got: " ++ text

/-- The messages of the causes of a fault. -/
def EndpointFault.causes : EndpointFault → List String
  | noUrl _ cause => [cause.message]
  | notEncrypted _ => []

/-- Whether an endpoint may be talked to. -/
def Url.isTrusted (url : Url) : Bool :=
  url.scheme == "https" || (url.scheme == "http" && url.host.any (·.isLoopback))

/-- What is wrong with an endpoint, if anything is. -/
def endpointFault? (text : String) : Option EndpointFault :=
  match Url.parse text with
  | .error cause => some (.noUrl text cause)
  | .ok url => if url.isTrusted then none else some (.notEncrypted text)

end Tariff
