import BareMetal.Cluster.Api
import BareMetal.Device.Api
import BareMetal.Instance.Pass

/-!
# Requests of a pass over an Instance

What the calls of a pass ask of the cluster and of the provisioning service. An object that is
gone already need not be deleted, and has no finalizer to be removed.
-/

namespace BareMetal

open Cluster (Api.get Api.patch Api.delete Api.ifPresent Api.named)

/-- The path of all Instances. -/
def Instance.allPath : String := s!"/apis/{Names.apiVersion}/instances"

/-- The path of an Instance. -/
def Instance.path (name : String) : String := s!"{allPath}/{name}"

/-- The path of all Nodes. -/
def Cluster.Node.allPath : String := "/api/v1/nodes"

/-- The path of a Node. -/
def Cluster.Node.path (name : String) : String := s!"{allPath}/{name}"

/-- The parameter that tells who changes an object. -/
def changeParameters : List (String × String) := [("fieldManager", Names.fieldManager)]

namespace InstanceCall

/-- Replaces the finalizers of an Instance. -/
def writeFinalizers (name : String) (finalizers : List String) : Cluster.Exchange Unit := do
  let _ ← Api.patch Instance.form.decode (Instance.path name) changeParameters
    (Cluster.Metadata.finalizerPatch finalizers)

/-- The name of the object that a call is about. -/
def about : InstanceCall → String
  | .writeStatus name _ | .addFinalizer name | .removeFinalizer name | .deleteInstance name
  | .getNode name | .deleteNode name => name

/-- The requests of a call. -/
def requests : (c : InstanceCall) → Cluster.Exchange c.Result
  | .writeStatus name status => show Cluster.Exchange Unit from do
    let _ ← Api.patch Instance.form.decode (Instance.path name ++ "/status") changeParameters
      (Instance.statusPatch status)
  | .addFinalizer name => show Cluster.Exchange Unit from do
    let i ← Api.get Instance.form.decode (Instance.path name)
    match i.metadata.finalizersWith? Names.deprovision with
    | none => return
    | some finalizers => writeFinalizers name finalizers
  | .removeFinalizer name => show Cluster.Exchange Unit from do
    match ← Api.ifPresent (Api.get Instance.form.decode (Instance.path name)) with
    | none => return
    | some i => writeFinalizers name (i.metadata.finalizersWithout Names.deprovision)
  | .deleteInstance name => show Cluster.Exchange Unit from do
    let _ ← Api.ifPresent (Api.delete Instance.form.decode (Instance.path name))
  | .getNode name => Api.ifPresent (Api.get Cluster.Node.decode (Cluster.Node.path name))
  | .deleteNode name => show Cluster.Exchange Unit from do
    let _ ← Api.ifPresent (Api.delete Cluster.Node.decode (Cluster.Node.path name))

/-- Carries out a call. -/
def carryOut (c : InstanceCall) : Cluster.Exchange c.Result := Api.named c.about c.requests

end InstanceCall

namespace DeviceCall

/-- The requests of a call, and the resource that a failure concerns. -/
def requests (s : Settings) : (c : DeviceCall) → Provisioning c.Result × String
  | .find c hostname =>
    (do return (← Provisioning.findByHostname c.projectId hostname).map (·.status), hostname)
  | .create c i => (Provisioning.create c i, i.name)
  | .status _ device => (Provisioning.status device, device)
  | .reconfigure _ i => (Provisioning.reconfigure i s.ipxeScriptUrl, i.name)
  | .delete _ device => (Provisioning.delete device, device)

/-- The credentials of a call. -/
def credentials : DeviceCall → Credentials
  | .find c _ | .create c _ | .status c _ | .reconfigure c _ | .delete c _ => c

/-- Carries out a call. -/
def carryOut (s : Settings) (c : DeviceCall) : Http.Exchange (Except Failure c.Result) := do
  let (requests, resource) := c.requests s
  return (← requests.carryOut ⟨s.metalApiUrl, c.credentials.token⟩).mapError (·.toFailure resource)

end DeviceCall

end BareMetal
