import BareMetal.Cluster.Metadata
import BareMetal.Names
import BareMetal.Networking

/-!
# Instances

An Instance stands for one physical machine. Its spec says which machine is wanted, its status
how far the machine has come: requested, reinstalled with its final configuration, booted, and at
last a member of the cluster.
-/

namespace BareMetal

open Json

/-- How far a machine has come. -/
inductive InstancePhase
  /-- Nothing has been requested. -/
  | empty
  /-- A device is being provisioned. -/
  | submitted
  /-- The device is being reinstalled with its final configuration. -/
  | reinstalling
  /-- The device runs and is expected to join the cluster. -/
  | ready
  /-- The machine is a member of the cluster. -/
  | managed
deriving DecidableEq, Inhabited

namespace InstancePhase

/-- All phases in their order. -/
def all : List InstancePhase := [.empty, .submitted, .reinstalling, .ready, .managed]

/-- The name of a phase. -/
def name : InstancePhase → String
  | .empty => "empty"
  | .submitted => "submitted"
  | .reinstalling => "reinstalling"
  | .ready => "ready"
  | .managed => "managed"

/-- The phase with a name. -/
def ofName? (s : String) : Option InstancePhase := all.find? (·.name = s)

theorem ofName?_name (p : InstancePhase) : ofName? p.name = some p := by
  cases p <;> decide

/-- The form of a phase. -/
def form : Form InstancePhase := .choice name ofName?

end InstancePhase

/-- Which machine is wanted. -/
structure InstanceSpec where
  plan : String := ""
  facility : List String := []
  metro : Option String := none
  operatingSystem : String := ""
  billingCycle : String := ""
  projectId : Option String := none
  userdata : Option String := none
  tags : List String := []
  description : Option String := none
  ipxeScriptUrl : Option String := none
  publicIpv4SubnetSize : Option Int32 := none
  alwaysPxe : Bool := false
  hardwareReservationId : Option String := none
  spotInstance : Bool := false
  spotPriceMax : Option Float := none
  customData : Option String := none
  userSshKeys : List String := []
  projectSshKeys : List String := []
  features : Dict String := ∅
  noSshKeys : Bool := false
  nodeCleanupWait : Option String := none
  managementInterfaces : List String := []
  managementBonding : Dict String := ∅
  networking : Option Networking := none
deriving DecidableEq, Inhabited

namespace InstanceSpec

/-- The form of a spec. -/
def form : Form InstanceSpec := .record <|
  InstanceSpec.mk
    <$> .required "plan" (·.plan) .text
    <*> .items "facility" (·.facility) .text
    <*> .optional "metro" (·.metro) .text
    <*> .required "operatingSystem" (·.operatingSystem) .text
    <*> .withDefault "billingCycle" (·.billingCycle) "" .text
    <*> .optional "projectID" (·.projectId) .text
    <*> .optional "userdata" (·.userdata) .text
    <*> .items "tags" (·.tags) .text
    <*> .optional "description" (·.description) .text
    <*> .optional "ipxeScriptUrl" (·.ipxeScriptUrl) .text
    <*> .optional "publicIPv4SubnetSize" (·.publicIpv4SubnetSize) .int32
    <*> .withDefault "alwaysPxe" (·.alwaysPxe) false .flag
    <*> .optional "hardwareReservationID" (·.hardwareReservationId) .text
    <*> .withDefault "spotInstance" (·.spotInstance) false .flag
    <*> .optional "spotPriceMax" (·.spotPriceMax) .float
    <*> .optional "customData" (·.customData) .text
    <*> .items "usersshKeys" (·.userSshKeys) .text
    <*> .items "projectsshKeys" (·.projectSshKeys) .text
    <*> .entries "features" (·.features) .text
    <*> .withDefault "nosshKeys" (·.noSshKeys) false .flag
    <*> .optional "nodeCleanupWaitInterval" (·.nodeCleanupWait) .text
    <*> .items "managementInterfaces" (·.managementInterfaces) .text
    <*> .entries "managementBondingOptions" (·.managementBonding) .text
    <*> .optional "networkingConfiguration" (·.networking) Networking.form

/-- How long the machine may be an unhealthy member, if that is limited. -/
def cleanupWait (s : InstanceSpec) : Except Failure (Option Span) :=
  match s.nodeCleanupWait.filter (· ≠ "") with
  | none => .ok none
  | some text =>
    match Span.parse text with
    | .ok span => .ok (some span)
    | .error e => .error (.validation Failure.unknown e.message (some "spec.nodeCleanupWaitInterval"))

/-- The networking configuration, if it wants a topology. -/
def wantedNetworking? (s : InstanceSpec) : Option Networking := s.networking.filter (!·.isEmpty)

end InstanceSpec

/-- How far the machine has come, and what is known about it. -/
structure InstanceStatus where
  phase : InstancePhase := .empty
  instanceId : Option String := none
  deviceState : Option String := none
  publicIp : Option String := none
  privateIp : Option String := none
deriving DecidableEq, Inhabited

/-- The form of a status. -/
def InstanceStatus.form : Form InstanceStatus := .record <|
  InstanceStatus.mk
    <$> .withDefault "phase" (·.phase) .empty InstancePhase.form
    <*> .optional "instanceID" (·.instanceId) .text
    <*> .optional "deviceState" (·.deviceState) .text
    <*> .optional "publicIP" (·.publicIp) .text
    <*> .optional "privateIP" (·.privateIp) .text

/-- A wanted machine and what has become of it. -/
structure Instance where
  metadata : Cluster.Metadata := {}
  spec : InstanceSpec := {}
  status : Option InstanceStatus := none
deriving Inhabited

namespace Instance

/-- The form of an Instance. -/
def form : Form Instance := .record <|
  (fun _ _ => Instance.mk)
    <$> .constant "apiVersion" Names.apiVersion
    <*> .constant "kind" "Instance"
    <*> .required "metadata" (·.metadata) Cluster.Metadata.form
    <*> .required "spec" (·.spec) InstanceSpec.form
    <*> .optionalMember "status" (·.status) InstanceStatus.form

/-- The name. -/
def name (i : Instance) : String := i.metadata.nameOrStem

/-- The phase; an Instance without status is empty. -/
def phase (i : Instance) : InstancePhase := (i.status.map (·.phase)).getD .empty

/-- The status, or the one from which everything starts. -/
def statusOrNew (i : Instance) : InstanceStatus := i.status.getD {}

/-- The id of the device, if one was recorded. -/
def deviceId? (i : Instance) : Option String :=
  (i.status.bind (·.instanceId)).filter (· ≠ "")

/-- The pool that the label names. -/
def labelledPool? (i : Instance) : Option String := i.metadata.label? Names.poolLabel

/-- Whether the Instance is being deleted. -/
def isDeleting (i : Instance) : Bool := i.metadata.isDeleting

/-- The token for the provisioning service. -/
def apiToken? (i : Instance) : Option String := i.metadata.annotation? Names.tokenKey

/-- The password of the machine. -/
def password? (i : Instance) : Option String := i.metadata.annotation? Names.passwordKey

/-- The boot script for reinstalls. -/
def reinstallScript? (i : Instance) : Option String := i.metadata.annotation? Names.reinstallScriptKey

/-- The pool that owns the Instance: the controlling owner of that kind, or else the pool that the
label names. -/
def owningPool? (i : Instance) : Option String :=
  match (i.metadata.ownerReferences.getD []).find? fun o =>
    o.kind = "InstancePool" && o.controller = some true with
  | some owner => some owner.name
  | none => i.labelledPool?

/-- The merge patch that replaces the status. -/
def statusPatch (s : InstanceStatus) : Json := .obj [("status", InstanceStatus.form.encode s)]

end Instance

end BareMetal
