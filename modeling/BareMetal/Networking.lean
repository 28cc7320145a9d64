import BareMetal.Failure
import BareMetal.Json.Form

/-!
# Network topologies

How the ports of a machine are laid out after its first boot, and which virtual networks are
attached to them. An object carries the topology as a free text, so that an unknown one is
noticed when the object is acted on and not when it is read.
-/

namespace BareMetal

open Json

/-- A layout of ports. -/
inductive Topology
  /-- A routed primary bond with public and private addresses. -/
  | layer3
  /-- Every physical port switched on its own. -/
  | layer2Individual
  /-- Bonded physical ports in switched mode. -/
  | layer2Bonded
  /-- A routed primary bond with the odd ports split off. -/
  | hybrid
  /-- A routed primary bond that carries virtual networks. -/
  | hybridBonded
deriving DecidableEq

namespace Topology

/-- All topologies. -/
def all : List Topology := [.layer3, .layer2Individual, .layer2Bonded, .hybrid, .hybridBonded]

/-- The name of a topology. -/
def name : Topology → String
  | .layer3 => "layer3"
  | .layer2Individual => "layer2-individual"
  | .layer2Bonded => "layer2-bonded"
  | .hybrid => "hybrid"
  | .hybridBonded => "hybrid-bonded"

/-- The topology with a name. -/
def ofName? (s : String) : Option Topology := all.find? (·.name = s)

/-- The topology with a name, or the failure that says which names there are. -/
def parse (s : String) : Except Failure Topology :=
  match ofName? s with
  | some t => .ok t
  | none => .error (.validation Failure.unknown
    (s!"unknown network type '{s}', expected one of: " ++ ", ".intercalate (all.map name)) none)

theorem ofName?_name (t : Topology) : ofName? t.name = some t := by
  cases t <;> decide

end Topology

/-- The virtual networks to attach to one port. -/
structure PortNetworks where
  name : String := ""
  vlans : List String := []
deriving DecidableEq, Inhabited

/-- The topology wanted and the virtual networks of its ports. -/
structure Networking where
  /-- The name of the topology, empty if none is wanted. -/
  topology : String := ""
  ports : List PortNetworks := []
deriving DecidableEq, Inhabited

/-- The form of the networks of a port. -/
def PortNetworks.form : Form PortNetworks := .record <|
  PortNetworks.mk
    <$> .required "name" (·.name) .text
    <*> .withDefault "vlanIDS" (·.vlans) [] (.list .text)

namespace Networking

/-- The form of a networking configuration. -/
def form : Form Networking := .record <|
  Networking.mk
    <$> .withDefault "type" (·.topology) "" .text
    <*> .withDefault "interfaceConfiguration" (·.ports) [] (.list PortNetworks.form)

/-- Whether no topology is wanted. -/
def isEmpty (n : Networking) : Bool := n.topology.isEmpty

/-- The topology wanted. -/
def parsedTopology (n : Networking) : Except Failure Topology := Topology.parse n.topology

end Networking

end BareMetal
