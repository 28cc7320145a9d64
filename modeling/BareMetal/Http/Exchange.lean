import BareMetal.Http.Target
import BareMetal.Json.Basic
import BareMetal.Program

/-!
# Exchanges

An exchange is a sequence of requests, each answered by a status and a text, or by nothing if the
connection is lost.
-/

namespace BareMetal.Http

/-- What is done to the target of a request. -/
inductive Method
  | get | post | put | patch | delete
deriving DecidableEq

/-- The name of a method. -/
def Method.name : Method → String
  | get => "GET"
  | post => "POST"
  | put => "PUT"
  | patch => "PATCH"
  | delete => "DELETE"

/-- A request to a server. -/
structure Request where
  method : Method
  target : Target
  headers : List (String × String) := []
  body : Option Json := none

/-- The value of a header. -/
def Request.header? (r : Request) (name : String) : Option String :=
  (r.headers.find? (·.1 = name)).map (·.2)

/-- An answer of a server. -/
structure Response where
  status : Nat
  body : String
deriving DecidableEq

/-- Whether the request was carried out. -/
def Response.isSuccess (r : Response) : Bool := 200 ≤ r.status && r.status < 300

/-- Whether the request was refused. -/
def Response.isRefusal (r : Response) : Bool := 400 ≤ r.status && r.status < 600

/-- A sequence of requests. -/
abbrev Exchange := Program Request fun _ => Option Response

end BareMetal.Http
