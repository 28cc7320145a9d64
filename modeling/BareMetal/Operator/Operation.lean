import BareMetal.Event.Recorder
import BareMetal.Instance.Requests
import BareMetal.Pool.Requests

/-!
# Operations

What the operator asks of the outside, and how the steps of passes come down to it: calls to the
cluster and to the provisioning service become requests, and so do events, which need what was
recorded before.
-/

namespace BareMetal

/-- What the operator asks of the outside. -/
inductive OperatorStep
  /-- Finds the cluster. -/
  | connect
  | cluster (r : Http.Request)
  | service (r : Http.Request)
  /-- Looks at the clock. -/
  | clock
  /-- Chooses a name and a password. -/
  | draw
  /-- Reads the bootstrap document. -/
  | readBootstrap (path : String)

/-- What a step is answered with. -/
abbrev OperatorStep.Answer : OperatorStep → Type
  | connect => Except ClusterFault Unit
  | cluster _ | service _ => Option Http.Response
  | clock => Stamp
  | draw => Draw
  | readBootstrap _ => Except String String

/-- A sequence of steps of the operator. -/
abbrev Operation := Program OperatorStep OperatorStep.Answer

namespace Operation

variable {α : Type}

/-- Takes one step. -/
def step (s : OperatorStep) : Operation s.Answer := Program.perform s

/-- An exchange with the cluster. -/
def withCluster (x : Http.Exchange α) : Operation α := x.lower fun r => step (.cluster r)

/-- An exchange with the provisioning service. -/
def withService (x : Http.Exchange α) : Operation α := x.lower fun r => step (.service r)

/-- Publishes an event about an object. -/
def announce (about : ObjectReference) (e : Event) : StateT Recorder Operation Unit := fun r => do
  let now ← step .clock
  return ((), ← withCluster (r.publish now (e.notice about)))

end Operation

open Operation

/-- Carries out a step of a pass over an Instance. -/
def InstanceStep.carryOut (s : Settings) (about : ObjectReference) :
    (x : InstanceStep) → StateT Recorder Operation x.Answer
  | .cluster c => StateT.lift (withCluster c.carryOut.outcome)
  | .device c => StateT.lift (withService (c.carryOut s))
  | .announce e => Operation.announce about e
  | .clock => StateT.lift (step .clock)

/-- Carries out a step of a pass over a pool. The passes of one operator are made one after
another, so that every lock is free. -/
def PoolStep.carryOut (about : ObjectReference) : (x : PoolStep) → StateT Recorder Operation x.Answer
  | .cluster c => StateT.lift (withCluster c.carryOut.outcome)
  | .announce e => Operation.announce about e
  | .lock _ | .unlock _ => pure ()
  | .draw => StateT.lift (step .draw)
  | .readBootstrap path => StateT.lift (step (.readBootstrap path))

end BareMetal
