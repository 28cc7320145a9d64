import BareMetal.Cluster.Metadata

/-!
# Known objects

The objects of one kind that a watch has shown and that are not gone, each under its name and
namespace.
-/

namespace BareMetal.Cluster

/-- What tells an object from the others of its kind. -/
structure ObjectKey where
  name : String
  /-- The namespace of the object, if its kind lives in namespaces. -/
  space : Option String := none
deriving DecidableEq, Inhabited

/-- The key of an object, if it has a name. -/
def Metadata.key? (m : Metadata) : Option ObjectKey := m.name.map (⟨·, m.space⟩)

/-- Objects by their keys, each key once. -/
structure Known (α : Type) where
  entries : List (ObjectKey × α) := []

namespace Known

variable {α : Type}

instance : Inhabited (Known α) := ⟨{}⟩

/-- The object under a key. -/
def get? (s : Known α) (k : ObjectKey) : Option α := (s.entries.find? (·.1 = k)).map (·.2)

/-- Drops the object under a key. -/
def erase (s : Known α) (k : ObjectKey) : Known α := ⟨s.entries.filter (·.1 ≠ k)⟩

/-- Puts an object under a key. -/
def insert (s : Known α) (k : ObjectKey) (a : α) : Known α := ⟨(s.erase k).entries ++ [(k, a)]⟩

/-- The number of objects. -/
def size (s : Known α) : Nat := s.entries.length

/-! ## Look-ups -/

theorem find?_filter_ne (es : List (ObjectKey × α)) (k q : ObjectKey) :
    (es.filter (·.1 ≠ k)).find? (·.1 = q) = if q = k then none else es.find? (·.1 = q) := by
  rw [List.find?_filter]
  split
  · next h => exact List.find?_eq_none.2 fun e _ => by simp [h]
  · next h =>
    congr 1
    funext e
    by_cases he : e.1 = q
    · simp [he, h]
    · simp [he]

@[simp] theorem get?_erase (s : Known α) (k q : ObjectKey) :
    (s.erase k).get? q = if q = k then none else s.get? q := by
  unfold erase get?
  rw [find?_filter_ne]
  split <;> rfl

@[simp] theorem get?_insert (s : Known α) (k q : ObjectKey) (a : α) :
    (s.insert k a).get? q = if q = k then some a else s.get? q := by
  unfold insert erase get?
  rw [List.find?_append, find?_filter_ne]
  by_cases h : q = k
  · simp [h]
  · have : ¬k = q := fun h' => h h'.symm
    simp [h, this]

end Known

end BareMetal.Cluster
