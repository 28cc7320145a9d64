import BareMetal.Device.Basic
import BareMetal.Networking

/-!
# Converting the topology of a device

A conversion is a fixed sequence of port operations for each topology. A plan is made by playing
the sequence on a copy of the port states and keeping only the operations that change something,
so that planning again after a part was carried out gives the rest. The virtual networks that are
not attached yet follow.
-/

namespace BareMetal

/-- An operation on a port. -/
inductive PortChange
  /-- Take the port out of its bond. -/
  | disbond
  /-- Put the port into its bond. -/
  | bond
  | toLayer2
  /-- Route the port, with a public and a private address of version 4 and a public one of
  version 6. -/
  | toLayer3
  | attach (vnid : String)
deriving DecidableEq

/-- An operation on the port with the given id and name. -/
structure PortAction where
  change : PortChange
  portId : String
  portName : String
deriving DecidableEq

/-- What planning needs to know of a port. -/
structure PortState where
  id : String
  name : String
  isBond : Bool
  bonded : Bool
  mode : Option String
  vlans : List String
deriving DecidableEq

/-- The state of a port as reported. -/
def PortState.ofPort (p : Port) : PortState where
  id := p.id
  name := p.name
  isBond := p.isBond
  bonded := p.data.bonded
  mode := p.networkType
  vlans := p.virtualNetworks.map (·.target)

namespace PortChange

/-- Whether the change would leave the port as it is. -/
def isDone (c : PortChange) (p : PortState) : Bool :=
  match c with
  | disbond => !p.bonded
  | bond => p.bonded
  | toLayer2 => p.mode.any (·.startsWith "layer2")
  | toLayer3 => p.mode = some "layer3"
  | attach vnid => p.vlans.contains vnid

/-- Applies `f` to the first port with the name. -/
def modifyFirst (name : String) (f : PortState → PortState) : List PortState → List PortState
  | [] => []
  | p :: rest => if p.name = name then f p :: rest else p :: modifyFirst name f rest

/-- The ports after the change of the first port with the name, which is `p`. Taking a bond apart
also frees the physical ports, and bonding a port makes the bonds whole. -/
def apply (c : PortChange) (p : PortState) (ports : List PortState) : List PortState :=
  match c with
  | disbond => ports.map fun q =>
      if q.name = p.name || (p.isBond && !q.isBond) then { q with bonded := false } else q
  | bond => (modifyFirst p.name ({ · with bonded := true }) ports).map fun q =>
      if q.isBond then { q with bonded := true } else q
  | toLayer2 => modifyFirst p.name
      ({ · with mode := some (if p.bonded then "layer2-bonded" else "layer2-individual") }) ports
  | toLayer3 => modifyFirst p.name ({ · with mode := some "layer3" }) ports
  | attach vnid => modifyFirst p.name (fun q => { q with vlans := q.vlans ++ [vnid] }) ports

end PortChange

/-- A plan in the making: the port states it leads to and its operations. -/
structure Plan where
  ports : List PortState
  actions : List PortAction := []

namespace Plan

/-- Adds a change of the named port, unless it is done already. -/
def step (device : String) (plan : Plan) (wanted : String × PortChange) : Except DeviceFailure Plan :=
  match plan.ports.find? (·.name = wanted.1) with
  | none => .error (.missingPort device wanted.1)
  | some p =>
    if wanted.2.isDone p then .ok plan
    else .ok ⟨wanted.2.apply p plan.ports, plan.actions ++ [⟨wanted.2, p.id, p.name⟩]⟩

/-- The port that routes. -/
def primaryBond : String := "bond0"

/-- The names of the bonds, or of the other ports. -/
def names (ports : List PortState) (bonds : Bool) : List String :=
  (ports.filter (·.isBond = bonds)).map (·.name)

/-- The changes that lead to a topology. -/
def conversion (ports : List PortState) : Topology → List (String × PortChange)
  | .layer3 => (names ports true).map (·, .disbond) ++ (primaryBond, .toLayer3) ::
      (names ports false).map (·, .bond)
  | .layer2Individual => (primaryBond, .toLayer2) :: (names ports false).map (·, .disbond)
  | .layer2Bonded => (names ports true).map (·, .toLayer2) ++ (names ports false).map (·, .bond)
  | .hybrid => (["eth1", "eth3"].filter fun n => ports.any (·.name = n)).map (·, .disbond)
  | .hybridBonded => []

/-- The virtual networks to attach. -/
def attachments (n : Networking) : List (String × PortChange) :=
  n.ports.flatMap fun p => p.vlans.map fun vnid => (p.name, .attach vnid)

/-- The operations that a device still needs. A device that is reported to have the topology only
needs virtual networks. -/
def make (d : Device) (n : Networking) : Except DeviceFailure (List PortAction) :=
  match Topology.ofName? n.topology with
  | none => .error (.unknownNetworkType n.topology)
  | some target => do
    let ports := d.ports.map .ofPort
    let changes := if d.networkType = some target.name then [] else conversion ports target
    let plan ← (changes ++ attachments n).foldlM (step d.id) ⟨ports, []⟩
    return plan.actions

end Plan

end BareMetal
