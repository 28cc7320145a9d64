import BareMetal.Instance.Basic
import BareMetal.Text.Blank
import BareMetal.Text.Quoted

/-!
# Credentials

The token and project with which the provisioning service is asked. A pool reads them from a
Secret and puts them onto its Instances; a pass over an Instance reads them back from there.
-/

namespace BareMetal

/-- A token, and the project in which devices are made and looked for. -/
structure Credentials where
  token : String
  projectId : String
deriving DecidableEq

namespace Credentials

/-- The key of the token in a Secret. -/
def tokenKey : String := "METAL_AUTH_TOKEN"

/-- The key of the project in a Secret. -/
def projectKey : String := "PROJECT_ID"

/-- A failure to find credentials. -/
def failure (message : String) : Failure := .configuration "credentials" message

/-- The text under a key of a Secret, without blanks around it. -/
def secretText (secret : String) (data : Option (Dict (List UInt8))) (key : String) :
    Except Failure String :=
  match data.bind (·.get? key) with
  | none => .error (failure s!"secret {secret} does not contain a key {key}")
  | some bytes =>
    match String.fromUTF8? ⟨bytes.toArray⟩ with
    | none => .error (failure s!"secret {secret} key {key} is not valid UTF-8")
    | some s => .ok (Text.trim s)

/-- The credentials in the data of a Secret. -/
def ofSecret (secret : String) (data : Option (Dict (List UInt8))) : Except Failure Credentials := do
  let token ← secretText secret data tokenKey
  let projectId ← secretText secret data projectKey
  return ⟨token, projectId⟩

/-- The credentials that an Instance carries. -/
def ofInstance (i : Instance) : Except Failure Credentials :=
  let name := i.metadata.name.getD ""
  match i.apiToken? with
  | none => .error (failure s!"instance {name} has no provisioning token annotation")
  | some token =>
    match i.spec.projectId.filter (· ≠ "") with
    | none => .error (failure s!"instance {name} has no projectID")
    | some projectId => .ok ⟨token, projectId⟩

theorem ofInstance_eq_ok_iff {i : Instance} {c : Credentials} : ofInstance i = .ok c ↔
    i.apiToken? = some c.token ∧ i.spec.projectId.filter (· ≠ "") = some c.projectId := by
  unfold ofInstance
  obtain ⟨token, projectId⟩ := c
  cases i.apiToken? <;> cases i.spec.projectId.filter (· ≠ "") <;> simp

/-- The credentials as they may be shown, without the token. -/
def shown (c : Credentials) : String :=
  "MetalCredentials \x7b token: \"<redacted>\", project_id: " ++ Text.quoted c.projectId ++ " \x7d"

end Credentials

end BareMetal
