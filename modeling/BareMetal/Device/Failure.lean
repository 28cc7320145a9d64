import BareMetal.Failure

/-!
# Failures of device requests

Why a request about a device failed, and the failure of the pass over the Instance that made it.
-/

namespace BareMetal

/-- Why a request about a device failed. -/
inductive DeviceFailure
  /-- No usable answer came back. -/
  | transport (detail : String)
  /-- The service refused with a status code. -/
  | rejected (status : Nat) (message : String)
  /-- The named object does not exist. -/
  | absent (what : String)
  | unknownNetworkType (name : String)
  | missingPort (device port : String)
  /-- The boot document cannot be read or written. -/
  | bootDocument (message : String)
deriving DecidableEq

namespace DeviceFailure

/-- The wording of a failure. -/
def message : DeviceFailure → String
  | .transport detail => s!"http error: {detail}"
  | .rejected status message => s!"metal API returned {status}: {message}"
  | .absent what => s!"{what} not found"
  | .unknownNetworkType name => s!"unknown network type '{name}'"
  | .missingPort device port => s!"device {device} has no port named {port}"
  | .bootDocument message => s!"boot configuration: {message}"

/-- The kind of a failure in a few words. -/
def kind : DeviceFailure → String
  | .transport _ => "http"
  | .rejected .. => "api"
  | .absent _ => "not_found"
  | .unknownNetworkType _ => "unknown_network_type"
  | .missingPort .. => "missing_port"
  | .bootDocument _ => "boot_config"

/-- Whether the object asked for does not exist. -/
def isAbsent : DeviceFailure → Bool
  | .absent _ => true
  | .rejected status _ => status = 404
  | _ => false

/-- Whether the same request can succeed later: the service may be busy or down, but a request
that it calls wrong stays wrong. -/
def retryable : DeviceFailure → Bool
  | .transport _ | .absent _ => true
  | .rejected status _ => status = 429 || status ≥ 500
  | .unknownNetworkType _ | .missingPort .. | .bootDocument _ => false

/-- The failure of a pass over the named resource. -/
def toFailure (resource : String) (f : DeviceFailure) : Failure :=
  match f with
  | .unknownNetworkType _ =>
    .validation resource f.message (some "spec.networkingConfiguration.type")
  | .bootDocument _ => .validation resource f.message (some "spec.userdata")
  | f => .provisioning resource f.message f.retryable

end DeviceFailure

end BareMetal
