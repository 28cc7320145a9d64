import BareMetal.Instance.Basic

/-!
# Membership

Which pool to look at again when an Instance changes. For every Instance the index remembers the
pool and the phase that its last event showed; it only decides whom to wake, and nobody acts on
what it remembers.
-/

namespace BareMetal

/-- What the last event of an Instance showed. -/
structure Membership where
  pool : String
  phase : InstancePhase
  deleting : Bool
deriving DecidableEq

/-- The last events of all Instances that have a pool. -/
abbrev PoolIndex := Dict Membership

namespace PoolIndex

/-- Drops an Instance, and gives the pool it belonged to. -/
def forget (x : PoolIndex) (name : String) : Option String × PoolIndex :=
  ((x.get? name).map (·.pool), x.erase name)

/-- Records an event of an Instance, and gives the pool to wake: when the Instance has become a
member of the cluster, or is being deleted. -/
def observe (x : PoolIndex) (i : Instance) : Option String × PoolIndex :=
  match i.owningPool? with
  | none => (none, (x.forget i.name).2)
  | some pool =>
    let current : Membership := ⟨pool, i.phase, i.isDeleting⟩
    let joined := match x.get? i.name with
      | none => true
      | some last => last.pool ≠ pool || last.phase ≠ .managed
    let wake := (current.phase = .managed && joined) || current.deleting
    (if wake then some pool else none, x.insert i.name current)

/-- Records an event as `observe` does, and then drops an Instance that is about to vanish because
its last finalizer is gone. -/
def wake (x : PoolIndex) (i : Instance) : Option String × PoolIndex :=
  let (pool, x) := x.observe i
  if i.isDeleting && (i.metadata.finalizers.getD []).isEmpty then (pool, (x.forget i.name).2)
  else (pool, x)

end PoolIndex

end BareMetal
