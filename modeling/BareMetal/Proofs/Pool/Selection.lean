import BareMetal.Proofs.Pool.Sizing
import Mathlib.Data.Int.ConditionallyCompleteOrder
import Mathlib.Data.Prod.Lex
import Mathlib.Data.String.Basic
import Mathlib.Order.ConditionallyCompleteLattice.Basic

/-!
# Whom a shrinking fleet loses

The Instances that are removed are the newest ones of those that are not being deleted already. They are told by
rank alone, so that the order in which the fleet is listed does not matter (`Fleet.removes_newest`).
-/

namespace BareMetal

/-- The time of creation, then the name. An Instance without time of creation has the lowest rank. -/
def Instance.rank (i : Instance) : Lex (WithBot ℤ × String) :=
  toLex (i.metadata.creationTimestamp.elim ⊥ fun t => (t.nanos : WithBot ℤ), i.name)

namespace Fleet

variable {is js : List Instance} {a b : Instance}

theorem removedBefore_iff : removedBefore a b = true ↔ b.rank ≤ a.rank := by
  rw [Instance.rank, Instance.rank, Prod.Lex.toLex_le_toLex]
  unfold removedBefore
  cases a.metadata.creationTimestamp with
  | none => cases b.metadata.creationTimestamp <;> simp
  | some s =>
    cases b.metadata.creationTimestamp with
    | none => simp
    | some t =>
      -- at equal times the names decide
      by_cases h : s = t
      · simp [h]
      · have hne : t.nanos ≠ s.nanos := fun he => h (by cases s; cases t; cases he; rfl)
        simp only [if_neg h, Option.elim_some, decide_eq_true_eq, WithBot.coe_lt_coe, WithBot.coe_inj, hne,
          false_and, or_false]
        exact Iff.rfl

theorem pairwise_mergeSort (is : List Instance) :
    (is.mergeSort removedBefore).Pairwise fun a b => b.rank ≤ a.rank := by
  have htrans (a b c : Instance) (hab : removedBefore a b) (hbc : removedBefore b c) : removedBefore a c := by
    rw [removedBefore_iff] at *
    exact hbc.trans hab
  have htotal (a b : Instance) : (removedBefore a b || removedBefore b a) = true := by
    rw [Bool.or_eq_true, removedBefore_iff, removedBefore_iff]
    exact le_total _ _
  exact (List.pairwise_mergeSort htrans htotal is).imp removedBefore_iff.1

/-- Lists of the same Instances are sorted to the same ranks. -/
theorem map_rank_mergeSort (h : is.Perm js) :
    (is.mergeSort removedBefore).map (·.rank) = (js.mergeSort removedBefore).map (·.rank) := by
  have hsorted (is : List Instance) : ((is.mergeSort removedBefore).map (·.rank)).Pairwise (· ≥ ·) :=
    List.pairwise_map.2 (pairwise_mergeSort is)
  have hperm : (is.mergeSort removedBefore).Perm (js.mergeSort removedBefore) :=
    ((List.mergeSort_perm is _).trans h).trans (List.mergeSort_perm js _).symm
  exact List.Perm.eq_of_pairwise (fun _ _ _ _ hge hle => le_antisymm hle hge) (hsorted is) (hsorted js)
    (hperm.map _)

theorem removalCandidates_perm (h : is.Perm js) (excess : Int32) :
    removalCandidates is excess = removalCandidates js excess := by
  have hnames (is : List Instance) : is.map (·.name) = (is.map (·.rank)).map fun r => (ofLex r).2 := by
    rw [List.map_map]
    rfl
  unfold removalCandidates
  rw [List.map_take, List.map_take, hnames, hnames, map_rank_mergeSort (h.filter _)]

/-- As many Instances as there are too many, or all, are chosen among those that are not being deleted, the newest
first: none that is kept has a higher rank than one that is chosen, and the order of the list does not matter. -/
theorem removes_newest (is : List Instance) (excess : Int32) :
    ∃ removed kept : List Instance, removalCandidates is excess = removed.map (·.name) ∧
      (removed ++ kept).Perm (is.filter (!·.isDeleting)) ∧
      (removed.length : Int) = min (max excess.toInt 0) (live is) ∧
      removed.Pairwise (fun a b => b.rank ≤ a.rank) ∧
      (∀ k ∈ kept, ∀ r ∈ removed, k.rank ≤ r.rank) ∧
      ∀ js : List Instance, js.Perm is → removalCandidates js excess = removalCandidates is excess := by
  let sorted := (is.filter (!·.isDeleting)).mergeSort removedBefore
  let n := (max excess 0).toNatClampNeg
  have hperm : (sorted.take n ++ sorted.drop n).Perm (is.filter (!·.isDeleting)) := by
    rw [List.take_append_drop]
    exact List.mergeSort_perm _ _
  have hranked : (sorted.take n ++ sorted.drop n).Pairwise fun a b => b.rank ≤ a.rank := by
    rw [List.take_append_drop]
    exact pairwise_mergeSort _
  obtain ⟨hremoved, -, hacross⟩ := List.pairwise_append.1 hranked
  have hlength : sorted.length = live is := by
    rw [live, List.countP_eq_length_filter, ← hperm.length_eq, List.take_append_drop]
  have hn : (n : Int) = max excess.toInt 0 := toNatClampNeg_max_zero excess
  refine ⟨sorted.take n, sorted.drop n, rfl, hperm, ?_, hremoved, fun k hk r hr => hacross r hr k hk,
    fun js h => removalCandidates_perm h excess⟩
  rw [List.length_take, hlength]
  omega

/-- A member of a pool with a time of creation. -/
def memberSince (name : String) (created : Option Stamp) (deleted : Bool) : Instance where
  metadata := {
    name := some name, creationTimestamp := created
    deletionTimestamp := if deleted then some .epoch else none }

/-- Of four Instances, of which one is being deleted, two were created at the same time: the one with the greater
name goes before the other, and the one without time of creation would go last. -/
theorem removes_newest_reversed :
    let fleet := [memberSince "edge-b" (some ⟨60⟩) false, memberSince "edge-a" (some ⟨60⟩) false,
      memberSince "edge-c" (some ⟨90⟩) true, memberSince "edge-d" none false]
    removalCandidates fleet 2 = ["edge-b", "edge-a"] ∧ removalCandidates fleet.reverse 2 = ["edge-b", "edge-a"] := by
  intro fleet
  have hsorted : (fleet.filter (!·.isDeleting)).Pairwise fun a b => removedBefore a b := by decide
  have hfleet : removalCandidates fleet 2 = ["edge-b", "edge-a"] := by
    rw [removalCandidates, List.mergeSort_of_pairwise hsorted]
    rfl
  obtain ⟨_, _, -, -, -, -, -, hsame⟩ := removes_newest fleet 2
  exact ⟨hfleet, (hsame fleet.reverse (List.reverse_perm fleet)).trans hfleet⟩

end Fleet

end BareMetal
