import BareMetal.Instance.Basic
import BareMetal.Pool.Basic

/-!
# Sizing a fleet

How many Instances a pool has, how many it should create or remove, and which ones. Counts are
whole numbers of 32 bits and wrap around.
-/

namespace BareMetal

/-- The Instances of a pool as one pass sees them. -/
structure Fleet where
  /-- Instances that are not being deleted. -/
  present : Int32 := 0
  /-- Of these, the members of the cluster. -/
  ready : Int32 := 0
deriving DecidableEq

namespace Fleet

/-- Counts Instances. -/
def ofInstances (is : List Instance) : Fleet :=
  let present := is.filter (!·.isDeleting)
  ⟨.ofNat present.length, .ofNat (present.filter (·.phase = .managed)).length⟩

/-- How many Instances may be created: no more than are needed by the record, and no more than
are missing in fact. -/
def creatable (count needed present : Int32) : Int32 := max (min needed (count - present)) 0

/-! ## Removal -/

/-- Whether `a` is removed before `b`: the newer one first, and of two equally old ones the one
with the greater name. An Instance without time of creation is the oldest. -/
def removedBefore (a b : Instance) : Bool :=
  match a.metadata.creationTimestamp, b.metadata.creationTimestamp with
  | some s, some t => if s = t then b.name ≤ a.name else t < s
  | some _, none => true
  | none, some _ => false
  | none, none => b.name ≤ a.name

/-- The names of the Instances to remove. -/
def removalCandidates (is : List Instance) (excess : Int32) : List String :=
  (((is.filter (!·.isDeleting)).mergeSort removedBefore).take (max excess 0).toNatClampNeg).map (·.name)

end Fleet

namespace PoolStatus

/-- The status after a look at the fleet. The pool is ready when every wanted Instance exists and
is a member; otherwise the gap is recorded, and its sign tells what to do next. -/
def settle (s : PoolStatus) (count : Int32) (fleet : Fleet) : PoolStatus :=
  if s.requested = count && fleet.ready = count && fleet.present = count then
    { s with ready := fleet.ready, phase := .ready, needed := 0 }
  else
    let gap := count - fleet.present
    { s with
      ready := fleet.ready
      needed := gap
      requested := if gap < 0 then fleet.present else count
      phase := if gap > 0 then .tokenReady else if gap < 0 then .cleanupNodes else .submitted }

/-- The status after a number of Instances were removed. -/
def afterRemovals (s : PoolStatus) (removed : Int32) : PoolStatus :=
  { s with requested := s.requested - removed, needed := s.needed + removed, phase := .submitted }

end PoolStatus

end BareMetal
