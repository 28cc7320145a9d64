import BareMetal.Instance.Pass

/-!
# A world with one Instance

What passes over one Instance see of the outside, and how their steps change it: the stored
Instance, the Node of its machine, what the service says about devices, and the clock. A step can
be made to fail, and then changes nothing.
-/

namespace BareMetal

/-- The answer by which a step fails, if the step is one that can. -/
def InstanceStep.failing (f : Failure) : (s : InstanceStep) → Option s.Answer
  | .cluster _ => some (.error f)
  | .device _ => some (.error f)
  | .announce _ | .clock => none

/-- The outside of passes over one Instance. -/
structure InstanceWorld where
  object : Instance
  node : Option Cluster.Node := none
  /-- The device with the host name of the Instance. -/
  found : Option DeviceStatus := none
  /-- The device that a request for one makes, if it succeeds. -/
  made : Option DeviceStatus := none
  /-- The device with the recorded id. -/
  polled : Option DeviceStatus := none
  now : Stamp := .epoch
  /-- The steps taken so far, the latest first. -/
  trail : List InstanceStep := []

namespace InstanceWorld

/-- Changes the stored metadata. -/
def editMetadata (w : InstanceWorld) (f : Cluster.Metadata → Cluster.Metadata) : InstanceWorld :=
  { w with object := { w.object with metadata := f w.object.metadata } }

/-- The world after a call to the cluster has taken effect. -/
def afterCall (w : InstanceWorld) : InstanceCall → InstanceWorld
  | .writeStatus _ status => { w with object := { w.object with status := some status } }
  | .addFinalizer _ => w.editMetadata fun m =>
    { m with finalizers := m.finalizersWith? Names.deprovision <|> m.finalizers }
  | .removeFinalizer _ => w.editMetadata fun m =>
    { m with finalizers := m.finalizers.map fun _ => m.finalizersWithout Names.deprovision }
  | .deleteInstance _ => w.editMetadata fun m => { m with deletionTimestamp := some w.now }
  | .deleteNode _ => { w with node := none }
  | .getNode _ => w

/-- The answer to a step, and the world after it. -/
def carryOut (w : InstanceWorld) : (s : InstanceStep) → s.Answer × InstanceWorld
  | .clock => (w.now, w)
  | .announce _ => ((), w)
  | .cluster c => (.ok (result c), w.afterCall c)
  | .device (.find ..) => (.ok w.found, w)
  | .device (.create ..) =>
    (w.made.elim (.error (.internal Failure.unknown "no create answer")) .ok, w)
  | .device (.status ..) => (.ok w.polled, w)
  | .device (.reconfigure ..) => (.ok (), w)
  | .device (.delete ..) => (.ok (), w)
where
  /-- What the cluster answers. -/
  result : (c : InstanceCall) → c.Result
    | .getNode _ => w.node
    | .writeStatus .. | .addFinalizer _ | .removeFinalizer _ | .deleteInstance _ | .deleteNode _ => ()

/-- Answers a step, or lets it fail as `fails` says. -/
def answer (fails : InstanceStep → Option Failure) (s : InstanceStep) : StateM InstanceWorld s.Answer :=
  fun w =>
    let w := { w with trail := s :: w.trail }
    match (fails s).bind (InstanceStep.failing · s) with
    | some a => (a, w)
    | none => w.carryOut s

end InstanceWorld

end BareMetal
