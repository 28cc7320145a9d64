import BareMetal.Cluster.Definition
import BareMetal.Instance.Basic

/-!
# The definition of Instances
-/

namespace BareMetal

open Cluster

/-- The shape of a networking configuration. -/
def Networking.schema : Schema := .record none [
  defaulted "type" "Topology name (layer3, layer2-individual, layer2-bonded, hybrid, hybrid-bonded)"
    (.str "") .text,
  defaulted "interfaceConfiguration" "Per-port VLAN assignments applied after the conversion" (.arr [])
    (.list (.record (some "VLANs to attach to one named port") [
      required "name" "Port name on the device (e.g. \"bond0\", \"eth1\")" .text,
      defaulted "vlanIDS" "VLAN identifiers (virtual network ids or VXLAN tags) to assign" (.arr [])
        (.list .text)]))]

/-- The shape of the spec of an Instance. -/
def InstanceSpec.schema : Schema := .record none [
  required "plan" "Machine class (e.g. \"c3.small.x86\")" .text,
  optional "facility" "Candidate facilities, mutually exclusive with `metro`" (.list .text),
  nullable "metro" "Metro to provision in" .text,
  required "operatingSystem" "OS image selector (\"custom_ipxe\" for pool-created instances)" .text,
  defaulted "billingCycle" "Billing cycle (e.g. \"hourly\")" (.str "") .text,
  nullable "projectID" "Project the device belongs to" .text,
  nullable "userdata" "Boot configuration document handed to the device" .text,
  optional "tags" "Device tags" (.list .text),
  nullable "description" "Free-form device description" .text,
  nullable "ipxeScriptUrl" "iPXE script used for the first boot" .text,
  nullable "publicIPv4SubnetSize" "Size of the public IPv4 subnet to assign" .int32,
  defaulted "alwaysPxe" "Always boot from iPXE" (.bool false) .flag,
  nullable "hardwareReservationID" "Hardware reservation to provision onto" .text,
  defaulted "spotInstance" "Request a spot-market device" (.bool false) .flag,
  nullable "spotPriceMax" "Maximum spot price per hour" .number,
  nullable "customData" "Custom metadata passed to the device" .text,
  optional "usersshKeys" "User SSH key ids" (.list .text),
  optional "projectsshKeys" "Project SSH key ids" (.list .text),
  optional "features" "Device feature flags" (.dict .text),
  defaulted "nosshKeys" "Do not inject any SSH keys" (.bool false) .flag,
  nullable "nodeCleanupWaitInterval"
    "How long the cluster member may stay NotReady before the Instance is replaced (duration string such as \"10m\" or \"1h30m\")"
    .text,
  optional "managementInterfaces" "Interfaces whose MAC addresses form the management network"
    (.list .text),
  optional "managementBondingOptions" "Bonding options for the management network" (.dict .text),
  nullable "networkingConfiguration" "Topology conversion applied when the device is reconfigured"
    Networking.schema]

/-- The shape of the status of an Instance. -/
def InstanceStatus.schema : Schema := .record none [
  defaulted "phase" "Current lifecycle phase" (.str InstancePhase.empty.name)
    (.choice (InstancePhase.all.map (·.name))),
  nullable "instanceID" "Device identifier assigned by the provisioning backend" .text,
  nullable "deviceState" "Last device state reported by the backend (e.g. \"queued\", \"active\")" .text,
  nullable "publicIP" "Public IPv4 address" .text,
  nullable "privateIP" "Private IPv4 address" .text]

/-- The definition of Instances. -/
def Instance.definition : Definition where
  kind := "Instance"
  plural := "instances"
  singular := "instance"
  shortName := "inst"
  columns := [⟨"Phase", "string", ".status.phase"⟩, ⟨"Device", "string", ".status.instanceID"⟩,
    ⟨"Public IP", "string", ".status.publicIP"⟩, ⟨"Age", "date", ".metadata.creationTimestamp"⟩]
  spec := required "spec"
    ("One bare-metal machine provisioned through the metal API\n\nExample: ```yaml apiVersion: " ++
      "metal.fleet.dev/v1alpha1 kind: Instance metadata: name: edge-pool-qwertyui spec: plan: " ++
      "c3.small.x86 metro: da operatingSystem: custom_ipxe billingCycle: hourly " ++
      "nodeCleanupWaitInterval: 10m ```") InstanceSpec.schema
  status := nullable "status" "Observed state of an Instance" InstanceStatus.schema

end BareMetal
