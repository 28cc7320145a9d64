import BareMetal.Cluster.Metadata

/-!
# Nodes

A Node is a member of the cluster. Of its status only the conditions are looked into: whether the
member is ready, and since when it is not. The rest is checked while it is read and then dropped.
-/

namespace BareMetal.Cluster

open Json

/-- One aspect of the health of a Node. -/
structure NodeCondition where
  kind : String := ""
  status : String := ""
  lastTransition : Option Stamp := none
deriving DecidableEq, Inhabited

/-- A member of the cluster. -/
structure Node where
  metadata : Metadata := {}
  conditions : List NodeCondition := []
deriving Inhabited

/-- Whether a Node is ready. -/
inductive NodeHealth
  | ready
  /-- Not ready, or not known to be, since the time given. -/
  | notReady (since : Option Stamp)
deriving DecidableEq

namespace Node

/-- The health that the first `Ready` condition reports. -/
def health (n : Node) : NodeHealth :=
  match n.conditions.find? (·.kind = "Ready") with
  | some c => if c.status = "True" then .ready else .notReady c.lastTransition
  | none => .notReady none

/-! ## Reading -/

/-- A condition. -/
private def condition : Decoder NodeCondition := Record.objectOnly <|
  (fun kind status last _ => ⟨kind, status, last⟩)
    <$> .lenientOr "type" "" .text
    <*> .lenientOr "status" "" .text
    <*> .lenient "lastTransitionTime" stampForm.decode
    <*> Shape.members [("lastHeartbeatTime", none, stampShape), ("message", none, Shape.text),
      ("reason", none, Shape.text)]

/-- Where the settings of a Node come from. -/
private def configSource : Decoder Json := Shape.object [("configMap", Shape.object
  [("kubeletConfigKey", Shape.text), ("name", Shape.text), ("namespace", Shape.text),
    ("resourceVersion", Shape.text), ("uid", Shape.text)] [])] []

/-- The part of a Node that is wished for. -/
private def spec : Decoder Json := Shape.object
  [("configSource", configSource), ("externalID", Shape.text), ("podCIDR", Shape.text),
    ("podCIDRs", Shape.list Shape.text), ("providerID", Shape.text),
    ("taints", Shape.list (Shape.object [("effect", Shape.text), ("key", Shape.text),
      ("timeAdded", stampShape), ("value", Shape.text)] [])),
    ("unschedulable", Shape.flag)] []

/-- What is known about the machine of a Node. -/
private def machine : Decoder Json := Shape.object
  (["architecture", "bootID", "containerRuntimeVersion", "kernelVersion", "kubeProxyVersion",
    "kubeletVersion", "machineID", "operatingSystem", "osImage", "systemUUID"].map (·, Shape.text)) []

/-- The part of the status that is not looked into. -/
private def otherStatus : List (String × Option Json × Decoder Json) :=
  [("addresses", Shape.list (Shape.object [("address", Shape.text), ("type", Shape.text)] [])),
    ("allocatable", Shape.dict Shape.text), ("capacity", Shape.dict Shape.text),
    ("config", Shape.object [("active", configSource), ("assigned", configSource),
      ("error", Shape.text), ("lastKnownGood", configSource)] []),
    ("daemonEndpoints", Shape.object
      [("kubeletEndpoint", Shape.object [("Port", Shape.int32)] [])] []),
    ("features", Shape.object [("supplementalGroupsPolicy", Shape.flag)] []),
    ("images", Shape.list (Shape.object
      [("names", Shape.list Shape.text), ("sizeBytes", Shape.int64)] [])),
    ("nodeInfo", machine), ("phase", Shape.text),
    ("runtimeHandlers", Shape.list (Shape.object
      [("features", Shape.object [("recursiveReadOnlyMounts", Shape.flag),
        ("userNamespaces", Shape.flag)] []), ("name", Shape.text)] [])),
    ("volumesAttached", Shape.list (Shape.object
      [("devicePath", Shape.text), ("name", Shape.text)] [])),
    ("volumesInUse", Shape.list Shape.text)].map fun e => (e.1, none, e.2)

/-- The conditions of a status. -/
private def status : Decoder (List NodeCondition) := Record.objectOnly <|
  (fun conditions _ => conditions)
    <$> .lenientOr "conditions" [] (.list condition) <*> Shape.members otherStatus

/-- Reads a Node. -/
def decode : Decoder Node := Record.objectOnly <|
  (fun _ _ metadata _ conditions => ⟨metadata, conditions⟩)
    <$> .expected "apiVersion" "v1"
    <*> .expected "kind" "Node"
    <*> .lenientOr "metadata" {} Metadata.form.decode
    <*> .lenient "spec" spec
    <*> .lenientOr "status" [] status

end Node

end BareMetal.Cluster
