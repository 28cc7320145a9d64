import BareMetal.Operator.Startup
import BareMetal.Trace

/-!
# Reports

What a rehearsal shows to people: requests that read or change an object, published events, and
requests to the provisioning service. Listing everything, as a watch does, is not worth telling.
-/

namespace BareMetal.Rehearsal

/-- A value within the body of a request. -/
def valueAt (r : Http.Request) (keys : List String) : Json :=
  (keys.foldl (fun v key => v.bind (·.get? key)) r.body).getD .null

/-- What there is to tell of an event. -/
def tracedEvent (r : Http.Request) : Traced where
  name := "event"
  arguments := [["regarding", "kind"], ["regarding", "name"], ["type"], ["reason"], ["action"], ["note"]].map
    (valueAt r)

/-- What there is to tell of a request to the cluster. -/
def tracedRequest? (r : Http.Request) : Option Traced :=
  let path := r.target.path
  let parameters := r.target.parameters
  let entry (more : Json) : Option Traced := some ⟨"kube", [.str r.method.name, .str path, more]⟩
  let body := r.body.getD .null
  if path.startsWith "/apis/events.k8s.io/" then some (tracedEvent r)
  else match r.method, parameters with
    | .get, [] =>
      if [Instance.allPath, Pool.allPath, Cluster.Node.allPath].contains path then none else entry .null
    | .get, (_, selector) :: _ => entry (.str selector)
    | .delete, _ => entry .null
    | .patch, _ =>
      if path.startsWith Cluster.Definition.allPath then
        entry (.obj (parameters.map fun e => (e.1, .str e.2)))
      else entry body
    | .post, _ | .put, _ => entry body

end BareMetal.Rehearsal

namespace BareMetal

/-- A step of the operator in a trace. -/
def OperatorStep.traced? : OperatorStep → Option Traced
  | .cluster r => Rehearsal.tracedRequest? r
  | .service r => some ⟨"metal", [.str r.method.name, .str r.target.path,
      Json.text? (r.header? "X-Auth-Token"), r.body.getD (.str "")]⟩
  | .connect | .clock | .draw | .readBootstrap _ => none

end BareMetal
