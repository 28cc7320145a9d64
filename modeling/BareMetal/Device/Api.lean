import BareMetal.Device.Service
import BareMetal.Http.Exchange

/-!
# The provisioning service over HTTP

Every request about a device is one HTTP request that carries the token, except that a listing
follows its pages. An answer that is no success is a refusal, with the reasons that its body
gives.
-/

namespace BareMetal

open Json

/-- How the service is reached, and the token that requests carry. -/
structure ServiceAccess where
  url : String
  token : String
deriving DecidableEq

/-- Requests to the service up to the first failure. -/
abbrev ServiceExchange := ExceptT DeviceFailure Http.Exchange

namespace ServiceAccess

/-- The number of devices on a page. -/
def pageSize : Nat := 100

/-- The number of pages that a listing follows at most. -/
def maxPages : Nat := 50

/-- The name and version by which the operator presents itself. -/
def userAgent : String := "fleet-operator/0.1.0"

/-- The address without slashes at its end. -/
def base (a : ServiceAccess) : String := .ofList (a.url.toList.reverse.dropWhile (· = '/')).reverse

/-- Whether a text can be the value of a header. -/
def isHeaderValue (s : String) : Bool := s.toList.all fun c => c = '\t' || (' ' ≤ c && c ≠ '\x7f')

/-- The request to a path of the service, if it can be put in words. -/
def request? (a : ServiceAccess) (method : Http.Method) (path : String)
    (parameters : List (String × String)) (body : Option Json) : Option Http.Request := do
  let target ← Http.Target.ofAddress? (a.base ++ path)
  if !isHeaderValue a.token then none
  else some {
    method := method
    target := target.withParameters parameters
    headers := [("X-Auth-Token", a.token), ("Accept", "application/json"), ("User-Agent", userAgent)] ++
      if body.isSome then [("Content-Type", "application/json")] else []
    body := body }

/-- Reads the reasons for a refusal. -/
def reasonsDecoder : Decoder (List String × Option String) := Record.strict <|
  Prod.mk <$> .withDefault "errors" [] (.list .text) <*> .optional "error" .text

/-- The reason for a refusal: the errors that the body lists, or else its only error, or else the
body itself. -/
def reason (body : String) : String :=
  match decodeText reasonsDecoder body with
  | .ok ([], some error) => error
  | .ok (error :: errors, _) => "; ".intercalate (error :: errors)
  | .ok ([], none) | .error _ => body

/-- Sends a request; gives the body of the answer. -/
def send (a : ServiceAccess) (method : Http.Method) (path : String)
    (parameters : List (String × String) := []) (body : Option Json := none) :
    ServiceExchange String := do
  match a.request? method path parameters body with
  | none => throw (.transport "invalid request")
  | some request =>
    match ← ExceptT.lift (Program.perform request) with
    | none => throw (.transport "connection lost")
    | some response =>
      if response.isSuccess then return response.body
      else throw (.rejected response.status (reason response.body))

/-- Reads the body of an answer. -/
def read {α : Type} (d : Decoder α) (body : String) : ServiceExchange α :=
  match decodeText d body with
  | .ok a => return a
  | .error _ => throw (.transport "unreadable answer")

/-- The devices of a project on at most `left` pages from `page` on. -/
def listFrom (a : ServiceAccess) (project : String) : (left page : Nat) → ServiceExchange (List Device)
  | 0, _ => return []
  | left + 1, page => do
    let parameters := [("page", toString page), ("per_page", toString pageSize)]
    let p ← read DevicePage.decode (← a.send .get s!"/projects/{project}/devices" parameters)
    if p.next.isNone || p.devices.isEmpty then return p.devices
    else return p.devices ++ (← listFrom a project left (page + 1))

/-- The last part of the path of a change of a port, and its body. -/
def portChange : PortChange → String × Json
  | .bond => ("bond", .obj [("bulk_enable", .bool false)])
  | .disbond => ("disbond", .obj [("bulk_disable", .bool false)])
  | .toLayer2 => ("convert/layer-2", .obj [])
  | .toLayer3 => ("convert/layer-3", .obj [("request_ips", DeviceRequest.addressRequests)])
  | .attach vnid => ("assign", .obj [("vnid", .str vnid)])

/-- Carries out a request about a device. -/
def carryOut (a : ServiceAccess) : (r : DeviceRequest) → ServiceExchange r.Result
  | .create project hostname spec => do
    read Device.form.decode (← a.send .post s!"/projects/{project}/devices" []
      (some (DeviceRequest.creationBody hostname spec)))
  | .get device => show ServiceExchange (Option Device) from
    tryCatch (do return some (← read Device.form.decode (← a.send .get s!"/devices/{device}")))
      fun f => if f.isAbsent then pure none else throw f
  | .list project => a.listFrom project maxPages 1
  | .update device change => do
    read Device.form.decode (← a.send .put s!"/devices/{device}" [] (some (DeviceRequest.changeBody change)))
  | .reinstall device => do
    let _ ← a.send .post s!"/devices/{device}/actions" [] (some DeviceRequest.reinstallBody)
  | .delete device =>
    tryCatch (do let _ ← a.send .delete s!"/devices/{device}" [("force_delete", "true")]) fun
      | .rejected 404 _ => throw (.absent s!"device {device}")
      | f => throw f
  | .changePort port change => do
    let (action, body) := portChange change
    read Port.form.decode (← a.send .post s!"/ports/{port}/{action}" [] (some body))

end ServiceAccess

/-! ## Sequences of requests -/

/-- Carries out a sequence of requests. -/
def Provisioning.carryOut {α : Type} (a : ServiceAccess) (p : Provisioning α) :
    Http.Exchange (Except DeviceFailure α) :=
  p.run.lower fun r => (a.carryOut r).run

end BareMetal
