/-!
# Failures

Why a pass over an object failed. Every failure names what it concerns where that is known, and
tells whether trying again can help without somebody changing something first.
-/

namespace BareMetal

/-- Why the cluster did not do what was asked. -/
inductive ClusterFault
  /-- The cluster refused with a status code. -/
  | rejected (code : Nat) (reason : String)
  /-- No usable answer came back. -/
  | unavailable (reason : String)
deriving DecidableEq

/-- The wording of a cluster fault. -/
def ClusterFault.message : ClusterFault → String
  | .rejected code reason => s!"{code}: {reason}"
  | .unavailable reason => reason

/-- Why a pass failed. -/
inductive Failure
  | cluster (fault : ClusterFault)
  | validation (resource message : String) (field : Option String)
  | provisioning (resource message : String) (retryable : Bool)
  | configuration (context message : String)
  | serialization (message : String) (document : Option String)
  | internal (context message : String)
deriving DecidableEq

namespace Failure

/-- Stands for a resource or context that is not known. -/
def unknown : String := "unknown"

/-- The wording of a failure. -/
def message : Failure → String
  | .cluster fault => s!"kubernetes error: {fault.message}"
  | .validation resource message _ => s!"validation error for {resource}: {message}"
  | .provisioning resource message _ => s!"provisioning error for {resource}: {message}"
  | .configuration context message => s!"configuration error [{context}]: {message}"
  | .serialization message _ => s!"serialization error: {message}"
  | .internal context message => s!"internal error [{context}]: {message}"

/-- The kind of a failure in one word. -/
def kind : Failure → String
  | .cluster _ => "kube"
  | .validation .. => "validation"
  | .provisioning .. => "provisioning"
  | .configuration .. => "configuration"
  | .serialization .. => "serialization"
  | .internal .. => "internal"

/-- Whether the same request can succeed later. Of what the cluster refuses, only refusals outside
the range of client errors can. -/
def retryable : Failure → Bool
  | .cluster (.rejected code _) => !(400 ≤ code && code < 500)
  | .cluster (.unavailable _) => true
  | .validation .. | .configuration .. | .serialization .. => false
  | .provisioning _ _ retryable => retryable
  | .internal .. => true

/-- The resource that a failure concerns. -/
def resource? : Failure → Option String
  | .validation resource _ _ | .provisioning resource _ _ => some resource
  | _ => none

/-- The context in which a failure arose. -/
def context? : Failure → Option String
  | .configuration context _ | .internal context _ => some context
  | _ => none

/-- The field that a failure concerns. -/
def field? : Failure → Option String
  | .validation _ _ field => field
  | _ => none

/-- The document that could not be read or written. -/
def document? : Failure → Option String
  | .serialization _ document => document
  | _ => none

end Failure

/-! ## Results -/

theorem ok_of_toOption {ε α : Type} {r : Except ε α} {a : α} (h : r.toOption = some a) : r = .ok a := by
  cases r <;> cases h
  rfl

end BareMetal
