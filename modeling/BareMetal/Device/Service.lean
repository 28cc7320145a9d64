import BareMetal.Boot.Document
import BareMetal.Credentials
import BareMetal.Device.Topology
import BareMetal.Program

/-!
# The provisioning service

What the service that owns the devices can be asked, and the sequences of requests with which a
device is created, found, reconfigured and deleted. Reconfiguring converts the ports, writes the
boot settings that differ, and reinstalls the device, in this order and up to the first failure.
-/

namespace BareMetal

/-- A change of the boot settings of a device. -/
structure BootChange where
  ipxeScriptUrl : Option String := none
  userdata : Option String := none
deriving DecidableEq, Inhabited

/-- Whether nothing changes. -/
def BootChange.isEmpty (c : BootChange) : Bool := c.ipxeScriptUrl.isNone && c.userdata.isNone

/-- A request to the service. -/
inductive DeviceRequest
  /-- Makes a device with a host name in a project. -/
  | create (project hostname : String) (spec : InstanceSpec)
  | get (device : String)
  | list (project : String)
  | update (device : String) (change : BootChange)
  /-- Installs the system again and keeps the data. -/
  | reinstall (device : String)
  | delete (device : String)
  | changePort (port : String) (change : PortChange)

namespace DeviceRequest

/-- What a request is answered with if it succeeds. -/
abbrev Result : DeviceRequest → Type
  | create .. | update .. => Device
  | get _ => Option Device
  | list _ => List Device
  | reinstall _ | delete _ => Unit
  | changePort .. => Port

/-- What a request is answered with. -/
abbrev Answer (r : DeviceRequest) : Type := Except DeviceFailure r.Result

end DeviceRequest

/-- A sequence of requests that ends at the first failure. -/
abbrev Provisioning := ExceptT DeviceFailure (Program DeviceRequest DeviceRequest.Answer)

namespace Provisioning

/-- Makes one request. -/
def request (r : DeviceRequest) : Provisioning r.Result := ExceptT.mk (Program.perform r)

/-- Makes the device of an Instance, in the project that its spec names or else in the one of the
credentials. -/
def create (c : Credentials) (i : Instance) : Provisioning DeviceStatus := do
  let project := (i.spec.projectId.filter (· ≠ "")).getD c.projectId
  let device ← request (.create project i.name i.spec)
  return device.status

/-- The status of a device, none if it does not exist. -/
def status (device : String) : Provisioning (Option DeviceStatus) := do
  return (← request (.get device)).map (·.status)

/-- The first device of a project with the host name. -/
def findByHostname (project hostname : String) : Provisioning (Option Device) := do
  return (← request (.list project)).find? (·.hostname = hostname)

/-- Deletes a device; one that does not exist is deleted already. -/
def delete (device : String) : Provisioning Unit :=
  tryCatch (request (.delete device)) fun f => if f.isAbsent then pure () else throw f

/-- The interface that is managed if none is named. -/
def defaultInterface : String := "eth0"

/-- The hardware addresses of the management interfaces of an Instance, in the order listed. -/
def managementMacs (i : Instance) (d : Device) : Except DeviceFailure (List String) :=
  let names := if i.spec.managementInterfaces.isEmpty then [defaultInterface] else i.spec.managementInterfaces
  names.mapM fun name =>
    match (d.port? name).bind (·.data.mac) with
    | some mac => .ok mac
    | none => .error (.missingPort d.id name)

/-- The userdata with which a device boots its final system. -/
def finalUserdata (i : Instance) (d : Device) : Except DeviceFailure String := do
  let macs ← managementMacs i d
  match Boot.Document.parse (i.spec.userdata.getD "") with
  | .error f => .error (.bootDocument f.message)
  | .ok boot => return (boot.withManagement macs i.spec.managementBonding).render

/-- The boot settings that a device still needs. -/
def bootChange (i : Instance) (d : Device) (userdata defaultScript : String) : BootChange :=
  let script := i.reinstallScript?.getD defaultScript
  { ipxeScriptUrl := if d.ipxeScriptUrl = some script then none else some script
    userdata := if d.userdata = some userdata then none else some userdata }

/-- Gives the device of an Instance its final configuration and reinstalls it, unless that is under
way. -/
def reconfigure (i : Instance) (defaultScript : String) : Provisioning Unit := do
  let some id := i.deviceId? | throw (.absent s!"device id of instance {i.name}")
  let some d ← request (.get id) | throw (.absent s!"device {id}")
  match i.spec.wantedNetworking? with
  | none => pure ()
  | some n =>
    let plan ← liftExcept (Plan.make d n)
    for a in plan do
      let _ ← request (.changePort a.portId a.change)
  let change := bootChange i d (← liftExcept (finalUserdata i d)) defaultScript
  unless change.isEmpty do
    let _ ← request (.update id change)
  unless d.deviceState = .reinstalling do
    request (.reinstall id)
where
  /-- A check that makes no request. -/
  liftExcept {α : Type} (r : Except DeviceFailure α) : Provisioning α := ExceptT.mk (pure r)

end Provisioning

/-! ## Bodies of requests -/

namespace DeviceRequest

open Json

/-- The body of a request for a device. -/
def creationBody (hostname : String) (s : InstanceSpec) : Json :=
  let text (key : String) (v : Option String) := Fields.some? key (v.map Json.str)
  let texts (key : String) (vs : List String) := Fields.some? key (if vs.isEmpty then none else some (.texts vs))
  .obj ([("hostname", .str hostname), ("plan", .str s.plan)] ++ texts "facility" s.facility ++
    text "metro" s.metro ++ [("operating_system", .str s.operatingSystem)] ++
    text "billing_cycle" (if s.billingCycle.isEmpty then none else some s.billingCycle) ++
    text "userdata" s.userdata ++ texts "tags" s.tags ++ text "description" s.description ++
    text "ipxe_script_url" s.ipxeScriptUrl ++
    Fields.some? "public_ipv4_subnet_size" (s.publicIpv4SubnetSize.map fun n => .int n.toInt) ++
    [("always_pxe", .bool s.alwaysPxe)] ++ text "hardware_reservation_id" s.hardwareReservationId ++
    [("spot_instance", .bool s.spotInstance)] ++ Fields.some? "spot_price_max" (s.spotPriceMax.map .float) ++
    text "customdata" s.customData ++ texts "user_ssh_keys" s.userSshKeys ++
    texts "project_ssh_keys" s.projectSshKeys ++
    Fields.some? "features" (if s.features.isEmpty then none else
      some (.obj (s.features.map Json.str).entries)) ++
    [("no_ssh_keys", .bool s.noSshKeys)])

/-- The body of a request to change boot settings. -/
def changeBody (c : BootChange) : Json :=
  .obj (Fields.some? "ipxe_script_url" (c.ipxeScriptUrl.map Json.str) ++
    Fields.some? "userdata" (c.userdata.map Json.str))

/-- The body of a request to reinstall a device. -/
def reinstallBody : Json :=
  .obj [("type", .str "reinstall"), ("preserve_data", .bool true), ("deprovision_fast", .bool true)]

/-- The addresses that a routed port asks for. -/
def addressRequests : Json :=
  .arr ([((4 : Int), true), (4, false), (6, true)].map fun (family, isPublic) =>
    .obj [("address_family", .int family), ("public", .bool isPublic)])

end DeviceRequest

end BareMetal
