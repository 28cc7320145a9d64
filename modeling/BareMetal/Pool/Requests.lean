import BareMetal.Instance.Requests
import BareMetal.Pool.Pass

/-!
# Requests of a pass over a pool

What the calls of a pass ask of the cluster. The members of a pool are the Instances with its
label.
-/

namespace BareMetal

open Cluster (Api.get Api.list Api.create Api.patch Api.delete Api.ifPresent Api.named)

/-- The path of all pools. -/
def Pool.allPath : String := s!"/apis/{Names.apiVersion}/instancepools"

/-- The path of a pool. -/
def Pool.path (name : String) : String := s!"{allPath}/{name}"

/-- The path of the objects of a kind within a namespace. -/
def Cluster.spacePath (space kind name : String) : String := s!"/api/v1/namespaces/{space}/{kind}/{name}"

/-- The selector of the members of a pool. -/
def Pool.selector (name : String) : String := s!"{Names.poolLabel}={name}"

namespace PoolCall

/-- The name of the object that a call is about, if there is one already. -/
def about? : PoolCall → Option String
  | .writeStatus name _ | .getSecret _ name | .getService _ name | .deleteInstance name => some name
  | .listControlPlane | .listInstances _ | .createInstance _ => none

/-- The requests of a call. -/
def requests : (c : PoolCall) → Cluster.Exchange c.Result
  | .writeStatus name status => show Cluster.Exchange Unit from do
    let _ ← Api.patch Pool.form.decode (Pool.path name ++ "/status") changeParameters
      (Pool.statusPatch status)
  | .getSecret space name =>
    Api.ifPresent (Api.get Cluster.Secret.form.decode (Cluster.spacePath space "secrets" name))
  | .listControlPlane => Api.list Cluster.Node.decode Cluster.Node.allPath (some Names.controlPlaneSelector)
  | .getService space name =>
    Api.ifPresent (Api.get Cluster.Service.form.decode (Cluster.spacePath space "services" name))
  | .listInstances pool => Api.list Instance.form.decode Instance.allPath (some (Pool.selector pool))
  | .createInstance i => show Cluster.Exchange Unit from do
    let _ ← Api.create Instance.form.decode Instance.allPath (Instance.form.encode i)
  | .deleteInstance name => show Cluster.Exchange Unit from do
    let _ ← Api.ifPresent (Api.delete Instance.form.decode (Instance.path name))

/-- Carries out a call. -/
def carryOut (c : PoolCall) : Cluster.Exchange c.Result :=
  match c.about? with
  | none => c.requests
  | some name => Api.named name c.requests

end PoolCall

end BareMetal
