import BareMetal.Operator.Controllers
import BareMetal.Pool.Definition

/-!
# Startup

Before its controllers run the operator checks its settings, finds the cluster, and installs the
definitions of its resources, so that they fit the version that runs. What cannot be listed then
is not watched.
-/

namespace BareMetal

open Json

/-- Why the operator did not start. -/
inductive StartFault
  | misconfigured (f : Failure)
  | noCluster (f : ClusterFault)
  /-- A definition, named here, was not installed. -/
  | notInstalled (definition : String) (f : ClusterFault)
deriving DecidableEq

/-- The wording of a fault. -/
def StartFault.message : StartFault → String
  | .misconfigured f => f.message
  | .noCluster f => s!"Failed to create Kubernetes client: {(Failure.cluster f).message}"
  | .notInstalled definition f => s!"Failed to install CRD {definition}: {f.message}"

namespace Cluster.Definition

/-- The path of all definitions. -/
def allPath : String := "/apis/apiextensions.k8s.io/v1/customresourcedefinitions"

/-- Checks a definition that the cluster gives back. -/
def shape : Decoder Unit := Record.objectOnly <|
  (fun _ _ _ _ _ => ())
    <$> .expected "apiVersion" "apiextensions.k8s.io/v1"
    <*> .expected "kind" "CustomResourceDefinition"
    <*> .lenient "metadata" Metadata.form.decode
    <*> .lenient "spec" Decoder.any
    <*> .lenient "status" Decoder.any

/-- Installs a definition, and takes over what others have set. -/
def install (d : Definition) : Exchange Unit :=
  Api.patch shape s!"{allPath}/{d.name}" (("force", "true") :: changeParameters) d.toJson Api.applyType

end Cluster.Definition

namespace Operator

/-- The start of the operator up to the first fault. -/
abbrev Starting := ExceptT StartFault Operation

/-- Takes one step. -/
private def ask (s : OperatorStep) : Starting s.Answer := ExceptT.lift (Operation.step s)

/-- Lists the objects of a kind. -/
private def listed {α : Type} (d : Decoder α) (path : String) : Starting (List α) := do
  match ← ExceptT.lift (Operation.withCluster (Cluster.Api.list d path).run) with
  | .ok objects => return objects
  | .error _ => return []

/-- Installs the definitions of the resources. -/
def installAll : List Cluster.Definition → Starting Unit
  | [] => return
  | d :: rest => do
    match ← ExceptT.lift (Operation.withCluster d.install.run) with
    | .error f => throw (.notInstalled d.name f)
    | .ok () => installAll rest

/-- Starts the operator, which then has seen all objects that there are. -/
def start (s : Settings) : Starting Operator := do
  match s.validate with
  | .error f => throw (.misconfigured f)
  | .ok () => pure ()
  match ← ask .connect with
  | .error f => throw (.noCluster f)
  | .ok () => pure ()
  installAll resourceDefinitions
  let instances ← listed Instance.form.decode Instance.allPath
  let nodes ← listed Cluster.Node.decode Cluster.Node.allPath
  let pools ← listed Pool.form.decode Pool.allPath
  let sightings := instances.map .instance ++ nodes.map .node ++ pools.map .pool
  return sightings.foldl (fun o x => o.see 0 x) { settings := s }

end Operator

end BareMetal
