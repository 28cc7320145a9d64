import BareMetal.Device.Failure
import BareMetal.Json.Form

/-!
# Devices

A device is a machine as the provisioning service reports it, with its ports and addresses. Only
what is read or written here is kept of a report.
-/

namespace BareMetal

open Json

/-- A link to another object of the service. -/
structure Link where
  href : String := ""
deriving DecidableEq, Inhabited

/-- The form of a link. -/
def Link.form : Form Link := .record <| Link.mk <$> .required "href" (·.href) .text

/-- The last segment of the path that a link gives. -/
def Link.target (l : Link) : String :=
  .ofList (l.href.toList.reverse.takeWhile (· ≠ '/')).reverse

/-- What kind of link a port is. -/
structure PortData where
  mac : Option String := none
  /-- Whether the port is part of a bond. -/
  bonded : Bool := false
deriving DecidableEq, Inhabited

/-- The form of port details. -/
def PortData.form : Form PortData := .record <|
  PortData.mk
    <$> .optional "mac" (·.mac) .text
    <*> .withDefault "bonded" (·.bonded) false .flag

/-- A port of a device. -/
structure Port where
  id : String := ""
  name : String := ""
  kind : String := ""
  /-- The mode of the port. -/
  networkType : Option String := none
  data : PortData := {}
  /-- The virtual networks attached to the port. -/
  virtualNetworks : List Link := []
deriving DecidableEq, Inhabited

namespace Port

/-- The form of a port. -/
def form : Form Port := .record <|
  Port.mk
    <$> .required "id" (·.id) .text
    <*> .required "name" (·.name) .text
    <*> .withDefault "type" (·.kind) "" .text
    <*> .optional "network_type" (·.networkType) .text
    <*> .withDefault "data" (·.data) {} PortData.form
    <*> .withDefault "virtual_networks" (·.virtualNetworks) [] (.list Link.form)

/-- Whether the port bonds other ports. -/
def isBond (p : Port) : Bool := p.kind = "NetworkBondPort"

/-- Whether the virtual network is attached. -/
def hasVlan (p : Port) (vnid : String) : Bool := p.virtualNetworks.any (·.target = vnid)

end Port

/-- An address of a device. -/
structure Address where
  address : String := ""
  /-- The version of the protocol, 4 or 6. -/
  family : UInt8 := 0
  isPublic : Bool := false
deriving DecidableEq, Inhabited

/-- The form of an address. -/
def Address.form : Form Address := .record <|
  Address.mk
    <$> .required "address" (·.address) .text
    <*> .required "address_family" (·.family) .byte
    <*> .withDefault "public" (·.isPublic) false .flag

/-- What a device is doing. -/
inductive DeviceState
  | queued | provisioning | active | reinstalling | inactive | failed | deprovisioning
  /-- Any other state, by its name. -/
  | other (name : String)
deriving DecidableEq

namespace DeviceState

/-- The name of a state. -/
def name : DeviceState → String
  | queued => "queued"
  | provisioning => "provisioning"
  | active => "active"
  | reinstalling => "reinstalling"
  | inactive => "inactive"
  | failed => "failed"
  | deprovisioning => "deprovisioning"
  | other name => name

/-- The states with a meaning. -/
def known : List DeviceState :=
  [queued, provisioning, active, reinstalling, inactive, failed, deprovisioning]

/-- The state with a name. -/
def ofName (s : String) : DeviceState := (known.find? (·.name = s)).getD (.other s)

/-- Whether the service has no operation on the device under way. -/
def isSettled : DeviceState → Bool
  | active | inactive => true
  | _ => false

end DeviceState

/-- A machine as the service reports it. -/
structure Device where
  id : String := ""
  hostname : String := ""
  state : String := ""
  /-- The topology that the service sees. -/
  networkType : Option String := none
  ipxeScriptUrl : Option String := none
  userdata : Option String := none
  ports : List Port := []
  addresses : List Address := []
deriving DecidableEq, Inhabited

namespace Device

/-- The form of a device. -/
def form : Form Device := .record <|
  Device.mk
    <$> .required "id" (·.id) .text
    <*> .withDefault "hostname" (·.hostname) "" .text
    <*> .withDefault "state" (·.state) "" .text
    <*> .optional "network_type" (·.networkType) .text
    <*> .optional "ipxe_script_url" (·.ipxeScriptUrl) .text
    <*> .optional "userdata" (·.userdata) .text
    <*> .withDefault "network_ports" (·.ports) [] (.list Port.form)
    <*> .withDefault "ip_addresses" (·.addresses) [] (.list Address.form)

/-- What the device is doing. -/
def deviceState (d : Device) : DeviceState := .ofName d.state

/-- The first port with a name. -/
def port? (d : Device) (name : String) : Option Port := d.ports.find? (·.name = name)

/-- The first address of version 4 that is public, or that is private. -/
def ipv4? (d : Device) (isPublic : Bool) : Option String :=
  (d.addresses.find? fun a => a.family = 4 && a.isPublic = isPublic).map (·.address)

end Device

/-- What a pass over an Instance needs to know about its device. -/
structure DeviceStatus where
  id : String
  state : DeviceState
  publicIpv4 : Option String := none
  privateIpv4 : Option String := none
deriving DecidableEq

/-- The status of a device. -/
def Device.status (d : Device) : DeviceStatus where
  id := d.id
  state := d.deviceState
  publicIpv4 := d.ipv4? true
  privateIpv4 := d.ipv4? false

/-- One page of a listing. -/
structure DevicePage where
  devices : List Device := []
  /-- The link to the next page. -/
  next : Option Link := none
deriving DecidableEq, Inhabited

/-- Reads a page. -/
def DevicePage.decode : Decoder DevicePage := Record.strict <|
  DevicePage.mk
    <$> .withDefault "devices" [] (.list Device.form.decode)
    <*> .withDefault "meta" none (Record.strict (.optional "next" Link.form.decode))

end BareMetal
