import BareMetal.Instance.Definition
import BareMetal.Pool.Basic

/-!
# The definition of pools
-/

namespace BareMetal

open Cluster

/-- The shape of the spec of a pool. -/
def PoolSpec.schema : Schema := .record none [
  required "count" "Desired number of Instances" .int32,
  defaulted "billingCycle" "Billing cycle for every device" (.str "") .text,
  defaulted "spotInstance" "Request spot-market devices" (.bool false) .flag,
  nullable "spotPriceMax" "Maximum spot price per hour" .number,
  nullable "customData" "Custom metadata passed to every device" .text,
  optional "usersshKeys" "User SSH key ids" (.list .text),
  optional "projectsshKeys" "Project SSH key ids" (.list .text),
  optional "features" "Device feature flags" (.dict .text),
  defaulted "nosshKeys" "Do not inject any SSH keys" (.bool false) .flag,
  optional "managementInterfaces" "Interfaces forming the management network (defaults to eth0)"
    (.list .text),
  optional "managementBondingOptions" "Bonding options for the management network" (.dict .text),
  nullable "ipxeScriptUrl" "iPXE script used when devices are reinstalled" .text,
  nullable "isoUrl" "Installer ISO location" .text,
  required "plan" "Machine class" .text,
  nullable "metro" "Metro to provision in" .text,
  optional "facility" "Candidate facilities" (.list .text),
  nullable "nodeCleanupWaitInterval"
    "How long a member may stay NotReady before its Instance is replaced" .text,
  nullable "networkingConfiguration" "Topology conversion applied to every device" Networking.schema]

/-- The shape of the status of a pool. -/
def PoolStatus.schema : Schema := .record none [
  defaulted "phase" "Current lifecycle phase" (.str PoolPhase.empty.name)
    (.choice (PoolPhase.all.map (·.name))),
  defaulted "ready" "Instances that are cluster members" (.int 0) .int32,
  defaulted "requested" "Instances the pool currently accounts for" (.int 0) .int32,
  defaulted "needed" "Instances still to create (positive) or delete (negative)" (.int 0) .int32,
  nullable "token" "Cached cluster join token" .text]

/-- The definition of pools. -/
def Pool.definition : Definition where
  kind := "InstancePool"
  plural := "instancepools"
  singular := "instancepool"
  shortName := "ipool"
  columns := [⟨"Phase", "string", ".status.phase"⟩, ⟨"Count", "integer", ".spec.count"⟩,
    ⟨"Ready", "integer", ".status.ready"⟩, ⟨"Age", "date", ".metadata.creationTimestamp"⟩]
  spec := required "spec"
    ("A fleet of identically templated bare-metal machines\n\nExample: ```yaml apiVersion: " ++
      "metal.fleet.dev/v1alpha1 kind: InstancePool metadata: name: edge-pool spec: count: 3 plan: " ++
      "c3.small.x86 metro: da billingCycle: hourly managementInterfaces: [eth0, eth1] " ++
      "networkingConfiguration: type: hybrid interfaceConfiguration: - name: eth1 vlanIDS: [\"1000\"] ```")
    PoolSpec.schema
  status := nullable "status" "Observed state of an InstancePool" PoolStatus.schema

/-- The definitions of all kinds, in the order in which they are installed. -/
def resourceDefinitions : List Definition := [Instance.definition, Pool.definition]

end BareMetal
