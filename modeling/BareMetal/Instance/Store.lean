import BareMetal.Cluster.Known
import BareMetal.Cluster.Node
import BareMetal.Instance.Basic

/-!
# Known Instances

The Instances that the watch has shown so far. A Node belongs to the Instance of its name, so that
Nodes of other machines never cause work.
-/

namespace BareMetal

/-- The known Instances. -/
abbrev InstanceStore := Cluster.Known Instance

namespace InstanceStore

/-- Adds an Instance, or replaces the one of its name; none if it has no name. -/
def apply (s : InstanceStore) (i : Instance) : Option InstanceStore :=
  i.metadata.key?.map fun k => s.insert k i

/-- Drops an Instance; none if it has no name. -/
def delete (s : InstanceStore) (i : Instance) : Option InstanceStore := i.metadata.key?.map s.erase

/-- The name of the Instance that a Node belongs to. -/
def ofNode? (s : InstanceStore) (n : Cluster.Node) : Option String :=
  n.metadata.name.filter fun name => (s.get? { name := name }).isSome

end InstanceStore

end BareMetal
