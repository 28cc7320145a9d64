import BareMetal.Dict

/-!
# Submission locks

Passes that create Instances for one pool take turns. Every pool has a lock while somebody holds
it or waits for it; the lock is handed over in the order of arrival, to the one who has waited
longest. The entry of a pool is dropped when its lock is released and nobody else refers to it.
-/

namespace BareMetal

namespace Locks

/-- How far a handle has come. -/
inductive Stage
  | waiting
  /-- The lock is the handle's, which has not noticed yet. -/
  | granted
  | held
deriving DecidableEq

/-- One taker of a lock. -/
structure Handle where
  id : String
  pool : String
  /-- The lock itself, which stays the same while anybody refers to it. -/
  lock : Nat
  stage : Stage
deriving DecidableEq

end Locks

/-- The locks of all pools and their takers in the order of arrival. -/
structure Locks where
  /-- The lock of each pool. -/
  entries : Dict Nat := ∅
  handles : List Locks.Handle := []
  /-- The next lock to be made. -/
  fresh : Nat := 0

namespace Locks

instance : Inhabited Locks := ⟨{}⟩

/-- Whether somebody owns a lock. -/
def isOwned (s : Locks) (lock : Nat) : Bool :=
  s.handles.any fun h => h.lock = lock && h.stage ≠ .waiting

/-- Starts to take the lock of a pool, and has it at once if nobody owns it. -/
def acquire (s : Locks) (id pool : String) : Locks :=
  match s.entries.get? pool with
  | some lock =>
    let stage := if s.isOwned lock then Stage.waiting else .held
    { s with handles := s.handles ++ [⟨id, pool, lock, stage⟩] }
  | none =>
    { entries := s.entries.insert pool s.fresh
      handles := s.handles ++ [⟨id, pool, s.fresh, .held⟩]
      fresh := s.fresh + 1 }

/-- Notices a lock that was handed over. -/
def poll (s : Locks) (id : String) : Locks :=
  { s with handles := s.handles.map fun h =>
      if h.id = id && h.stage = .granted then { h with stage := .held } else h }

/-- Hands a lock to the first of the handles that waits for it. -/
def grant (lock : Nat) : List Handle → List Handle
  | [] => []
  | h :: rest =>
    if h.lock = lock && h.stage = .waiting then { h with stage := .granted } :: rest
    else h :: grant lock rest

/-- Drops a handle. A lock that it owned goes to the next one, and the entry of the pool goes if
the handle held the lock and no other handle refers to it. -/
def release (s : Locks) (id : String) : Locks :=
  match s.handles.find? (·.id = id) with
  | none => s
  | some h =>
    let others := s.handles.filter (·.id ≠ id)
    let idle := h.stage = .held && !others.any (·.lock = h.lock)
    { s with
      entries := if idle then s.entries.erase h.pool else s.entries
      handles := if h.stage = .waiting then others else grant h.lock others }

/-- The ids of the handles at a stage. -/
def ids (s : Locks) (p : Stage → Bool) : List String :=
  (s.handles.filter (p ·.stage)).map (·.id)

/-- The number of entries. -/
def size (s : Locks) : Nat := s.entries.size

end Locks

end BareMetal
