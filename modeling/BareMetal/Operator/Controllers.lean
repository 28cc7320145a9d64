import BareMetal.Instance.Store
import BareMetal.Operator.Agenda
import BareMetal.Operator.Operation
import BareMetal.Pool.Membership

/-!
# Controllers

One controller passes over the Instances and one over the pools. A controller knows the objects
that the watch has shown, and looks at an object when it was shown, when another object that
concerns it was shown, or when the last pass wanted to look again: an Instance is concerned by its
Node, a pool by an Instance that joins or leaves it. An object that is gone by then is passed over
no more.
-/

namespace BareMetal

open Cluster (Known ObjectKey)

/-- Something that a watch shows. -/
inductive Sighting
  | instance (i : Instance)
  | instanceGone (i : Instance)
  /-- A Node that came, changed or went. -/
  | node (n : Cluster.Node)
  | pool (p : Pool)
  | poolGone (p : Pool)

/-! ## Instances -/

/-- The controller of the Instances. -/
structure InstanceController where
  known : InstanceStore := {}
  agenda : Agenda := {}
  memory : InstanceMemory := {}
  recorder : Recorder := { controller := "fleet-instance-controller" }

namespace InstanceController

/-- Has an Instance looked at now. -/
def look (c : InstanceController) (now : Nat) (k : Option ObjectKey) : InstanceController :=
  match k with
  | none => c
  | some k => { c with agenda := c.agenda.add k now }

/-- Takes notice of a sighting. -/
def see (c : InstanceController) (now : Nat) : Sighting → InstanceController
  | .instance i => { c with known := (c.known.apply i).getD c.known }.look now i.metadata.key?
  | .instanceGone i => { c with known := (c.known.delete i).getD c.known }.look now i.metadata.key?
  | .node n => c.look now ((c.known.ofNode? n).map fun name => { name := name })
  | .pool _ | .poolGone _ => c

/-- Makes a pass over an Instance, and plans the next one. -/
def visit (s : Settings) (now : Nat) (c : InstanceController) (k : ObjectKey) :
    Operation InstanceController :=
  match c.known.get? k with
  | none => return c
  | some i => do
    let pass := (i.reconcile s).run.run c.memory
    let ((r, memory), recorder) ←
      (pass.run (InstanceStep.carryOut s (.ofMetadata "Instance" i.metadata))).run c.recorder
    let (next, memory) := match r with
      | .ok next => (next, memory)
      | .error _ => i.afterFailure (now * 10 ^ 6) memory
    return { c with memory := memory, recorder := recorder, agenda := c.agenda.followUp k now next }

/-- Makes the passes whose time has come. -/
def tick (s : Settings) (now : Nat) (c : InstanceController) : Operation InstanceController :=
  (c.agenda.due now).foldlM (visit s now) { c with agenda := c.agenda.later now }

end InstanceController

/-! ## Pools -/

/-- The controller of the pools. -/
structure PoolController where
  known : Known Pool := {}
  agenda : Agenda := {}
  index : PoolIndex := ∅
  backoff : Backoff := ∅
  recorder : Recorder := { controller := "fleet-pool-controller" }

namespace PoolController

/-- Has a pool looked at now. -/
def look (c : PoolController) (now : Nat) (k : Option ObjectKey) : PoolController :=
  match k with
  | none => c
  | some k => { c with agenda := c.agenda.add k now }

/-- Takes notice of a sighting. -/
def see (c : PoolController) (now : Nat) : Sighting → PoolController
  | .pool p =>
    { c with known := (p.metadata.key?.map fun k => c.known.insert k p).getD c.known }.look now p.metadata.key?
  | .poolGone p =>
    { c with known := (p.metadata.key?.map c.known.erase).getD c.known }.look now p.metadata.key?
  | .instance i | .instanceGone i =>
    let (pool, index) := c.index.wake i
    { c with index := index }.look now (pool.map fun name => { name := name })
  | .node _ => c

/-- Makes a pass over a pool, and plans the next one. -/
def visit (s : Settings) (now : Nat) (c : PoolController) (k : ObjectKey) : Operation PoolController :=
  match c.known.get? k with
  | none => return c
  | some p => do
    let pass := (p.reconcile s).run.run c.backoff
    let ((r, backoff), recorder) ←
      (pass.run (PoolStep.carryOut (.ofMetadata "InstancePool" p.metadata))).run c.recorder
    let (next, backoff) := match r with
      | .ok next => (next, backoff)
      | .error _ => p.afterFailure (now * 10 ^ 6) backoff
    return { c with backoff := backoff, recorder := recorder, agenda := c.agenda.followUp k now next }

/-- Makes the passes whose time has come. -/
def tick (s : Settings) (now : Nat) (c : PoolController) : Operation PoolController :=
  (c.agenda.due now).foldlM (visit s now) { c with agenda := c.agenda.later now }

end PoolController

/-! ## Both -/

/-- The running operator. -/
structure Operator where
  settings : Settings
  instances : InstanceController := {}
  pools : PoolController := {}

namespace Operator

/-- Shows something to both controllers. -/
def see (o : Operator) (now : Nat) (x : Sighting) : Operator :=
  { o with instances := o.instances.see now x, pools := o.pools.see now x }

/-- Makes the passes of both controllers whose time has come. -/
def tick (o : Operator) (now : Nat) : Operation Operator := do
  let instances ← o.instances.tick o.settings now
  let pools ← o.pools.tick o.settings now
  return { o with instances := instances, pools := pools }

end Operator

end BareMetal
