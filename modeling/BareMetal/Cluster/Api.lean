import BareMetal.Failure
import BareMetal.Http.Exchange
import BareMetal.Json.Form

/-!
# The cluster over HTTP

Objects of a kind live under a path of their own and are got, listed, created, patched and
deleted there. A refusal names its status code, in its body or else in the status of the answer.
An answer that is no refusal has to hold what was asked for.
-/

namespace BareMetal.Cluster

open Json

/-- Requests to the cluster up to the first failure. -/
abbrev Exchange := ExceptT ClusterFault Http.Exchange

namespace Api

/-! ## Answers -/

/-- Reads the code and the reason of a refusal. -/
def refusalDecoder : Decoder (Nat × String) := Record.strict <|
  (fun _ message _ code => (code.toNat, message))
    <$> .required "status" .text
    <*> .withDefault "message" "" .text
    <*> .withDefault "reason" "" .text
    <*> .required "code" (.whole 0 65535)

/-- The fault that a refusal stands for. -/
def refusal (r : Http.Response) : ClusterFault :=
  match decodeText refusalDecoder r.body with
  | .ok (code, message) => .rejected code message
  | .error _ => .rejected r.status r.body

/-- Sends a request; gives the body of the answer. -/
def send (r : Http.Request) : Exchange String := do
  match ← ExceptT.lift (Program.perform r) with
  | none => throw (.unavailable "connection lost")
  | some response =>
    if response.isRefusal then throw (refusal response) else return response.body

/-- Reads the body of an answer. -/
def read {α : Type} (d : Decoder α) (body : String) : Exchange α :=
  match decodeText d body with
  | .ok a => return a
  | .error _ => throw (.unavailable "unreadable answer")

/-- Reads the metadata of a list. -/
def listMetadata : Decoder Json := Shape.object [("continue", Shape.text),
  ("remainingItemCount", Shape.int64), ("resourceVersion", Shape.text), ("selfLink", Shape.text)] []

/-- Reads a list of objects. -/
def listDecoder {α : Type} (d : Decoder α) : Decoder (List α) := Record.objectOnly <|
  (fun _ items => items.getD [])
    <$> .withDefault "metadata" .null listMetadata
    <*> .required "items" (.optional (.list d))

/-- Reads the outcome of an operation. -/
def statusDecoder : Decoder Unit := Record.strict <|
  (fun _ _ _ _ _ => ())
    <$> .optional "status" (.choice fun s => if s = "Success" || s = "Failure" then some () else none)
    <*> .withDefault "code" 0 (.whole 0 65535)
    <*> .withDefault "message" "" .text
    <*> .withDefault "reason" "" .text
    <*> .optional "details" details
where
  /-- What the operation was about. -/
  details : Decoder Unit := Record.strict <|
    (fun _ _ _ _ _ _ => ())
      <$> .withDefault "name" "" .text
      <*> .withDefault "group" "" .text
      <*> .withDefault "kind" "" .text
      <*> .withDefault "uid" "" .text
      <*> .withDefault "causes" [] (.list cause)
      <*> .withDefault "retryAfterSeconds" 0 (.whole 0 (2 ^ 32 - 1))
  /-- One cause of a failure. -/
  cause : Decoder Unit := Record.strict <|
    (fun _ _ _ => ())
      <$> .withDefault "reason" "" .text
      <*> .withDefault "message" "" .text
      <*> .withDefault "field" "" .text

/-- Reads the answer to a deletion: the object on its last way, or the outcome. -/
def readDeleted {α : Type} (d : Decoder α) (body : String) : Exchange Unit := do
  let j ← read Decoder.any body
  if (j.get? "kind").bind asText? = some "Status" then read statusDecoder body
  else
    let _ ← read d body

/-! ## Requests -/

/-- The content type of merge patches. -/
def mergePatchType : String := "application/merge-patch+json"

/-- The content type of whole objects that are applied. -/
def applyType : String := "application/apply-patch+yaml"

/-- Gets the object at a path. -/
def get {α : Type} (d : Decoder α) (path : String) : Exchange α := do
  read d (← send { method := .get, target := { path := path } })

/-- Lists the objects under a path, or those of them that a selector of labels accepts. -/
def list {α : Type} (d : Decoder α) (path : String) (selector : Option String := none) :
    Exchange (List α) := do
  let parameters := (selector.map ("labelSelector", ·)).toList
  read (listDecoder d) (← send {
    method := .get, target := (Http.Target.mk path none).withParameters parameters })

/-- Creates an object under a path; gives it as it was stored. -/
def create {α : Type} (d : Decoder α) (path : String) (object : Json) : Exchange α := do
  read d (← send {
    method := .post, target := { path := path }, body := some object
    headers := [("Content-Type", "application/json")] })

/-- Changes the object at a path, by a merge patch unless another type is given; gives it as it was
stored. -/
def patch {α : Type} (d : Decoder α) (path : String) (parameters : List (String × String)) (change : Json)
    (type : String := mergePatchType) : Exchange α := do
  read d (← send {
    method := .patch, target := (Http.Target.mk path none).withParameters parameters, body := some change
    headers := [("Content-Type", type)] })

/-- Deletes the object at a path. -/
def delete {α : Type} (d : Decoder α) (path : String) : Exchange Unit := do
  readDeleted d (← send {
    method := .delete, target := { path := path }, body := some (.obj [])
    headers := [("Content-Type", "application/json")] })

/-- Requests about the object with a name, of which none is made if the name is empty. -/
def named {α : Type} (name : String) (x : Exchange α) : Exchange α :=
  if name.isEmpty then throw (.unavailable "a name is required") else x

/-- The result, none if the object does not exist. -/
def ifPresent {α : Type} (x : Exchange α) : Exchange (Option α) :=
  tryCatch (some <$> x) fun
    | .rejected 404 _ => pure none
    | f => throw f

end Api

/-- The outcome of an exchange for a pass. -/
def Exchange.outcome {α : Type} (x : Exchange α) : Http.Exchange (Except Failure α) := do
  return (← x.run).mapError .cluster

end BareMetal.Cluster
