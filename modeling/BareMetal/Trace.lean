import BareMetal.Instance.Pass
import BareMetal.Device.Service
import BareMetal.Pool.Pass

/-!
# Traces

What was asked in the course of a pass, as a list of names with arguments that people can read.
-/

namespace BareMetal

/-- A call by its name and arguments. -/
structure Traced where
  name : String
  arguments : List Json

namespace Traced

/-- A call with texts for arguments. -/
def texts (name : String) (arguments : List String) : Traced := ⟨name, arguments.map .str⟩

/-- The call as a value. -/
def toJson (t : Traced) : Json := .arr [.str t.name, .arr t.arguments]

/-- The call as one list. -/
def toFlatJson (t : Traced) : Json := .arr (.str t.name :: t.arguments)

end Traced

/-- A request to the service in a trace. -/
def DeviceRequest.traced : DeviceRequest → Traced
  | create project hostname spec => ⟨"create_device", [.str project, creationBody hostname spec]⟩
  | get device => .texts "get_device" [device]
  | list project => .texts "list_devices" [project]
  | update device change => ⟨"update_device", [.str device, changeBody change]⟩
  | reinstall device => ⟨"reinstall_device", [.str device, reinstallBody]⟩
  | delete device => .texts "delete_device" [device]
  | changePort port .disbond => .texts "disbond_port" [port]
  | changePort port .bond => .texts "bond_port" [port]
  | changePort port .toLayer2 => .texts "convert_layer2" [port]
  | changePort port .toLayer3 => ⟨"convert_layer3", [.str port, addressRequests]⟩
  | changePort port (.attach vnid) => .texts "assign_vlan" [port, vnid]

/-- An operation on a port in a trace. -/
def PortAction.traced (a : PortAction) : Traced :=
  let (name, more) := match a.change with
    | .disbond => ("disbond", [])
    | .bond => ("bond", [])
    | .toLayer2 => ("layer2", [])
    | .toLayer3 => ("layer3", [DeviceRequest.addressRequests])
    | .attach vnid => ("vlan", [.str vnid])
  ⟨name, .str a.portId :: .str a.portName :: more⟩

/-- A call about a device in a trace: credentials first, then what it is about. -/
def DeviceCall.traced : DeviceCall → Traced
  | find c hostname => .texts "find_by_hostname" [c.token, c.projectId, hostname]
  | create c i => .texts "create" [c.token, c.projectId, i.name]
  | status c device => .texts "status" [c.token, c.projectId, device]
  | reconfigure c i => .texts "reconfigure" [c.token, c.projectId, i.name]
  | delete c device => .texts "delete" [c.token, c.projectId, device]

/-- A call about an Instance in a trace. -/
def InstanceCall.traced : InstanceCall → Traced
  | writeStatus name status => ⟨"patch_status", [.str name, InstanceStatus.form.encode status]⟩
  | addFinalizer name => .texts "add_finalizer" [name]
  | removeFinalizer name => .texts "remove_finalizer" [name]
  | deleteInstance name => .texts "delete_instance" [name]
  | getNode name => .texts "get_node" [name]
  | deleteNode name => .texts "delete_node" [name]

/-- A call about a pool in a trace. -/
def PoolCall.traced : PoolCall → Traced
  | writeStatus name status => ⟨"patch_status", [.str name, PoolStatus.form.encode status]⟩
  | getSecret space name => .texts "get_secret" [space, name]
  | listControlPlane => ⟨"list_control_plane_nodes", []⟩
  | getService space name => .texts "get_service" [space, name]
  | listInstances pool => .texts "list_instances" [pool]
  | createInstance i => ⟨"create_instance", [Instance.form.encode i]⟩
  | deleteInstance name => .texts "delete_instance" [name]

/-- An event about an object in a trace: the object first, then what is told of it. -/
def Event.traced (kind name : String) (e : Event) : Traced :=
  .texts kind [name, if e.warning then "warning" else "normal", e.reason.name, e.activity.name, e.note]

/-- What a pass tells or asks in one step. -/
inductive TraceEntry
  | call (c : Traced)
  | event (e : Event)

namespace TraceEntry

/-- The call, if it is one. -/
def call? : TraceEntry → Option Traced
  | .call c => some c
  | .event _ => none

/-- The event, if it is one. -/
def event? : TraceEntry → Option Event
  | .event e => some e
  | .call _ => none

end TraceEntry

/-- A step of a pass over an Instance in a trace. -/
def InstanceStep.traced? : InstanceStep → Option TraceEntry
  | cluster c => some (.call c.traced)
  | device c => some (.call c.traced)
  | announce e => some (.event e)
  | clock => none

/-- A step of a pass over a pool in a trace. -/
def PoolStep.traced? : PoolStep → Option TraceEntry
  | cluster c => some (.call c.traced)
  | announce e => some (.event e)
  | lock _ | unlock _ | draw | readBootstrap _ => none

end BareMetal
