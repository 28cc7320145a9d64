import BareMetal.Dict
import BareMetal.Operator.Operation

/-!
# Scenes

A scene is an outside that stands still, in which the operator can be rehearsed. Its cluster
answers reads from a fixed stock of objects and accepts writes, which change nothing; its
provisioning service knows no devices. Single requests can be given answers of their own.
-/

namespace BareMetal.Rehearsal

/-- Answers that single requests are given, by method and path; none means that the connection is
lost. -/
abbrev Answers := Dict (Option Http.Response)

/-- The objects of a cluster by the plural names of their kinds. -/
abbrev Stock := Dict (List Json)

/-- An outside that stands still. -/
structure Scene where
  /-- The objects of the cluster, if there is one. -/
  stock : Option Stock := some ∅
  clusterAnswers : Answers := ∅
  serviceAnswers : Answers := ∅
  /-- Whether the address of the provisioning service leads to it. -/
  serviceReached : Bool := true
  /-- The bootstrap document, if it can be read. -/
  bootstrap : Option String := none
  wall : Stamp := .epoch
  draw : Draw := default

/-! ## The stock -/

/-- An object of the cluster, or all of its kind, by the path. -/
structure Place where
  kind : String
  space : Option String := none
  name : Option String := none

/-- What the segments of a path lead to, if it is a place of the stock. -/
def Place.ofSegments? : List String → Option Place
  | ["api", "v1", "namespaces", space, kind, name] => some { kind := kind, space := some space, name := some name }
  | "api" :: "v1" :: kind :: rest => some { kind := kind, name := rest.head? }
  | "apis" :: group :: _ :: kind :: rest =>
    if group = Names.apiGroup then some { kind := kind, name := rest.head? } else none
  | _ => none

/-- What a path leads to. -/
def Place.ofPath? (path : String) : Option Place := ofSegments? ((path.splitOn "/").drop 1)

/-- A text in the metadata of an object. -/
def metadataText? (key : String) (object : Json) : Option String :=
  ((object.get? "metadata").bind (·.get? key)).bind Json.asText?

/-- The object that a place names. -/
def Place.find? (p : Place) (stock : Stock) : Option Json :=
  ((stock.get? p.kind).getD []).find? fun o =>
    metadataText? "name" o = p.name && (p.space.isNone || metadataText? "namespace" o = p.space)

/-- The labels of an object. -/
def labels (object : Json) : List (String × Json) :=
  match (object.get? "metadata").bind (·.get? "labels") with
  | some (.obj members) => members
  | _ => []

/-- Whether an object has the label that a selector asks for; the selector is still encoded. -/
def isSelected (selector : String) (object : Json) : Bool :=
  (labels object).any fun e =>
    e.2.asText?.any fun value => Text.Percent.form s!"{e.1}={value}" = selector

/-! ## Answers -/

/-- An answer with a value for its body. -/
def answer (status : Nat) (body : Json) : Option Http.Response := some ⟨status, body.render⟩

/-- The answer of a cluster that does not find an object. -/
def notFound : Option Http.Response :=
  answer 404 (.obj [("apiVersion", .str "v1"), ("kind", .str "Status"), ("metadata", .obj []),
    ("status", .str "Failure"), ("message", .str "not found"), ("reason", .str "NotFound"),
    ("code", .int 404)])

/-- The answer to a listing. -/
def listing (objects : List Json) : Option Http.Response :=
  answer 200 (.obj [("apiVersion", .str "v1"), ("kind", .str "List"),
    ("metadata", .obj [("resourceVersion", .str "1")]), ("items", .arr objects)])

/-- The answer that a request is given of its own. -/
def Answers.find? (answers : Answers) (r : Http.Request) : Option (Option Http.Response) :=
  answers.get? s!"{r.method.name} {r.target.path}"

/-- The answer of the cluster: objects of the stock are found, and everything else is taken as it
comes. -/
def clusterAnswer (stock : Stock) (r : Http.Request) : Option Http.Response :=
  match r.method, Place.ofPath? r.target.path with
  | .post, _ => answer 201 (r.body.getD .null)
  | .get, some { kind, name := none, .. } =>
    let selector := (r.target.parameters.find? (·.1 = "labelSelector")).map (·.2)
    listing (((stock.get? kind).getD []).filter fun o => selector.all (isSelected · o))
  | _, some p => ((p.find? stock).map (answer 200)).getD notFound
  | .patch, none => answer 200 (r.body.getD .null)
  | _, none => notFound

/-- The answer of a provisioning service that has no devices. -/
def serviceAnswer : Option Http.Response := answer 404 (.obj [("errors", .texts ["Not found"])])

/-- Answers a step of the operator. -/
def Scene.answer (w : Scene) : (s : OperatorStep) → s.Answer
  | .connect => if w.stock.isSome then .ok () else .error (.unavailable "no cluster is configured")
  | .cluster r => (w.clusterAnswers.find? r).getD (clusterAnswer (w.stock.getD ∅) r)
  | .service r => if w.serviceReached then (w.serviceAnswers.find? r).getD serviceAnswer else none
  | .clock => w.wall
  | .draw => w.draw
  | .readBootstrap _ => w.bootstrap.elim (.error "no such document") .ok

end BareMetal.Rehearsal
