import BareMetal.Pool.Locks
import BareMetal.Pool.Pass

/-!
# A world with one pool

What passes over one pool see of the outside, and how their steps change it: the stored pool and
its members, the other objects they read, the locks, and the clock. A member with finalizers stays
while it is being deleted. A step can be made to fail, and then changes nothing.
-/

namespace BareMetal

/-- The answer by which a step fails, if the step is one that can. -/
def PoolStep.failing (f : Failure) : (s : PoolStep) → Option s.Answer
  | .cluster _ => some (.error f)
  | .announce _ | .lock _ | .unlock _ | .draw | .readBootstrap _ => none

/-- The outside of passes over one pool. -/
structure PoolWorld where
  object : Pool
  members : List Instance := []
  secret : Option Cluster.Secret := none
  service : Option Cluster.Service := none
  /-- The Nodes that run the control plane. -/
  controlPlane : List Cluster.Node := []
  /-- The bootstrap document, if it can be read. -/
  bootstrap : Option String := none
  locks : Locks := {}
  /-- The number of members created so far. -/
  created : Nat := 0
  /-- The next random choices. -/
  draw : Draw := default
  /-- The name under which a new member is stored, given its number. -/
  naming : Nat → String → String := fun _ name => name
  now : Stamp := .epoch
  /-- The steps taken so far, the latest first. -/
  trail : List PoolStep := []

namespace PoolWorld

/-- A member after a request to delete it: gone, or on its way. -/
def deleted (now : Stamp) (i : Instance) : Option Instance :=
  if (i.metadata.finalizers.getD []).isEmpty then none
  else some { i with metadata := { i.metadata with deletionTimestamp := some now } }

/-- A new member as it is stored. -/
def stored (w : PoolWorld) (i : Instance) : Instance :=
  { i with metadata := { i.metadata with
    name := some (w.naming (w.created + 1) i.name), creationTimestamp := some w.now } }

/-- The world after a call to the cluster has taken effect. -/
def afterCall (w : PoolWorld) : PoolCall → PoolWorld
  | .writeStatus _ status => { w with object := { w.object with status := some status } }
  | .createInstance i => { w with created := w.created + 1, members := w.members ++ [w.stored i] }
  | .deleteInstance name =>
    { w with members := w.members.filterMap fun i => if i.name = name then deleted w.now i else some i }
  | .getSecret .. | .listControlPlane | .getService .. | .listInstances _ => w

/-- The answer to a step, and the world after it. -/
def carryOut (w : PoolWorld) : (s : PoolStep) → s.Answer × PoolWorld
  | .announce _ => ((), w)
  | .lock pool => ((), { w with locks := w.locks.acquire "pass" pool })
  | .unlock _ => ((), { w with locks := w.locks.release "pass" })
  | .draw => (w.draw, w)
  | .readBootstrap _ => (w.bootstrap.elim (.error "no such document") .ok, w)
  | .cluster c => (.ok (result c), w.afterCall c)
where
  /-- What the cluster answers. -/
  result : (c : PoolCall) → c.Result
    | .getSecret .. => w.secret
    | .listControlPlane => w.controlPlane
    | .getService .. => w.service
    | .listInstances _ => w.members
    | .writeStatus .. | .createInstance _ | .deleteInstance _ => ()

/-- Answers a step, or lets it fail as `fails` says. -/
def answer (fails : PoolStep → Option Failure) (s : PoolStep) : StateM PoolWorld s.Answer :=
  fun w =>
    let w := { w with trail := s :: w.trail }
    match (fails s).bind (PoolStep.failing · s) with
    | some a => (a, w)
    | none => w.carryOut s

end PoolWorld

end BareMetal
