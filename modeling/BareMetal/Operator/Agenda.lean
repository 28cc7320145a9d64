import BareMetal.Cluster.Known
import BareMetal.Event

/-!
# The agenda

When to look at which objects. An object stands on the agenda once, at the earliest of the times
that were asked for; looking at it takes it off. Times are counted in milliseconds from the start.
-/

namespace BareMetal

open Cluster (ObjectKey)

/-- The objects to look at, with the time of each. -/
structure Agenda where
  entries : List (ObjectKey × Nat) := []
deriving Inhabited

namespace Agenda

/-- When an object is looked at. -/
def time? (a : Agenda) (k : ObjectKey) : Option Nat := (a.entries.find? (·.1 = k)).map (·.2)

/-- Has an object looked at by a time: a later time on the agenda is replaced, an earlier one
stays. -/
def add (a : Agenda) (k : ObjectKey) (time : Nat) : Agenda :=
  if (a.time? k).any (· < time) then a else ⟨a.entries.filter (·.1 ≠ k) ++ [(k, time)]⟩

/-- An object is on the agenda at the earliest time that was asked for; other objects keep their
times. -/
theorem time?_add (a : Agenda) (k q : ObjectKey) (time : Nat) :
    (a.add k time).time? q =
      if q = k then some (((a.time? k).map (min · time)).getD time) else a.time? q := by
  unfold add
  split
  · next h =>
    obtain ⟨t, ht, hlt⟩ := (Option.any_eq_true _ _).1 h
    by_cases hq : q = k
    · have : min t time = t := Nat.min_eq_left (Nat.le_of_lt (by simpa using hlt))
      simp [hq, ht, this]
    · simp [hq]
  · next h =>
    have hfirst : ((a.time? k).map (min · time)).getD time = time := by
      cases ht : a.time? k with
      | none => rfl
      | some t => exact Nat.min_eq_right (by simpa [ht] using h)
    rw [hfirst]
    unfold time?
    rw [List.find?_append, Cluster.Known.find?_filter_ne]
    by_cases hq : q = k
    · simp [hq]
    · have : ¬k = q := fun h' => hq h'.symm
      simp [hq, this]

/-- A span in whole milliseconds, rounded up. -/
def millis (s : Span) : Nat := (s.nanos + 999999) / 10 ^ 6

/-- Has an object looked at again as a pass over it wants. -/
def followUp (a : Agenda) (k : ObjectKey) (now : Nat) : Followup → Agenda
  | .onChange => a
  | .after wait => a.add k (now + millis wait)

/-- The objects whose time has come. -/
def due (a : Agenda) (now : Nat) : List ObjectKey := (a.entries.filter (·.2 ≤ now)).map (·.1)

/-- The rest of the agenda. -/
def later (a : Agenda) (now : Nat) : Agenda := ⟨a.entries.filter (now < ·.2)⟩

end Agenda

end BareMetal
