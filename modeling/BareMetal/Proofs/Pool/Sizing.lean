import BareMetal.Pool.Sizing
import Mathlib.Tactic.ByContra

/-!
# Sizing without overflow

The counts of a pool are numbers of 32 bits. As long as the fleet is smaller than `2 ^ 31`, they
are the numbers that they stand for: the gap is the difference, no more Instances are created than
are missing, and a fleet that is to shrink is recorded with its excess.
-/

namespace BareMetal

namespace Fleet

/-- The number of Instances that are not being deleted. -/
def live (is : List Instance) : Nat := is.countP (!·.isDeleting)

theorem live_perm {is js : List Instance} (h : is.Perm js) : live is = live js := h.countP_eq _

theorem live_cons_le (i : Instance) (is : List Instance) : live (i :: is) ≤ live is + 1 := by
  unfold live
  rw [List.countP_cons]
  split <;> omega

/-- Instances that are being deleted, or gone, do not come back. -/
theorem live_filterMap_le {f : Instance → Option Instance}
    (hf : ∀ i j, f i = some j → i.isDeleting = true → j.isDeleting = true) (is : List Instance) :
    live (is.filterMap f) ≤ live is := by
  unfold live
  rw [List.countP_filterMap]
  refine List.countP_mono_left fun i _ hi => ?_
  cases hj : f i with
  | none => simp [hj] at hi
  | some j =>
    rw [hj] at hi
    by_contra hdeleting
    simp [hf i j hj (by simpa using hdeleting)] at hi

theorem toInt_present {is : List Instance} (h : live is < 2 ^ 31) :
    (ofInstances is).present.toInt = live is := by
  unfold live at h ⊢
  rw [List.countP_eq_length_filter] at h ⊢
  exact Int32.toInt_ofNat_of_lt h

/-- The gap between two numbers that are not negative is their difference. -/
theorem toInt_gap {count present : Int32} (hc : 0 ≤ count.toInt) (hp : 0 ≤ present.toInt) :
    (count - present).toInt = count.toInt - present.toInt := by
  have hcount := count.toInt_lt
  have hpresent := present.toInt_lt
  rw [Int32.toInt_sub]
  exact Int.bmod_eq_of_le (by omega) (by omega)

theorem creatable_le_gap {count needed present : Int32} (h : 0 < creatable count needed present) :
    creatable count needed present ≤ count - present := by
  have hmin : min needed (count - present) ≤ count - present := by
    show (if needed ≤ count - present then needed else count - present) ≤ count - present
    split
    · assumption
    · exact Int32.le_refl _
  unfold creatable at h ⊢
  generalize min needed (count - present) = bound at h hmin ⊢
  change 0 < if bound ≤ 0 then 0 else bound at h
  show (if bound ≤ 0 then 0 else bound) ≤ count - present
  split at h
  · exact absurd h Int32.lt_irrefl
  · next hbound => rwa [if_neg hbound]

/-- Whatever need is recorded, no more Instances may be created than are missing. -/
theorem creatable_le {count present : Int32} (needed : Int32) (hc : 0 ≤ count.toInt)
    (hp : 0 ≤ present.toInt) (hn : 0 < (creatable count needed present).toNatClampNeg) :
    present.toInt + (creatable count needed present).toNatClampNeg ≤ count.toInt := by
  have hpos : 0 < creatable count needed present := (Int32.toNatClampNeg_pos_iff _).1 hn
  have hle := Int32.le_iff_toInt_le.1 (creatable_le_gap hpos)
  have hnat := Int32.cast_toNatClampNeg _ (Int32.le_of_lt hpos)
  rw [toInt_gap hc hp] at hle
  omega

theorem ofInstances_perm {is js : List Instance} (h : is.Perm js) :
    ofInstances is = ofInstances js := by
  have hlive := h.filter (!·.isDeleting)
  unfold ofInstances
  dsimp only
  rw [hlive.length_eq, (hlive.filter _).length_eq]

theorem toInt_min (a b : Int32) : (min a b).toInt = min a.toInt b.toInt := by
  show (if a ≤ b then a else b).toInt = _
  have hle := @Int32.le_iff_toInt_le a b
  by_cases h : a ≤ b
  · have := hle.1 h
    rw [if_pos h]
    omega
  · have := mt hle.2 h
    rw [if_neg h]
    omega

theorem toInt_max (a b : Int32) : (max a b).toInt = max a.toInt b.toInt := by
  show (if a ≤ b then b else a).toInt = _
  have hle := @Int32.le_iff_toInt_le a b
  by_cases h : a ≤ b
  · have := hle.1 h
    rw [if_pos h]
    omega
  · have := mt hle.2 h
    rw [if_neg h]
    omega

theorem toNatClampNeg_max_zero (a : Int32) : ((max a 0).toNatClampNeg : Int) = max a.toInt 0 := by
  rw [Int32.toNatClampNeg, toInt_max, Int32.toInt_zero]
  omega

/-- As many Instances may be created as are needed by the record and missing in fact. -/
theorem toNatClampNeg_creatable {count present : Int32} (needed : Int32) (hc : 0 ≤ count.toInt)
    (hp : 0 ≤ present.toInt) : ((creatable count needed present).toNatClampNeg : Int) =
      max (min needed.toInt (count.toInt - present.toInt)) 0 := by
  have hcreatable : (creatable count needed present).toInt =
      max (min needed.toInt (count.toInt - present.toInt)) 0 := by
    rw [creatable, toInt_max, toInt_min, toInt_gap hc hp]
    rfl
  rw [Int32.toNatClampNeg, hcreatable]
  omega

/-- As many Instances may be removed as are recorded to be too many. -/
theorem toNatClampNeg_removable {needed : Int32} (h : -2 ^ 31 < needed.toInt) :
    (max (-needed) 0).toNatClampNeg = (-needed.toInt).toNat := by
  have hlt := needed.toInt_lt
  have hneg : (-needed).toInt = -needed.toInt := by
    rw [Int32.toInt_neg]
    exact Int.bmod_eq_of_le (by omega) (by omega)
  have hmax := toNatClampNeg_max_zero (-needed)
  rw [hneg] at hmax
  omega

end Fleet

/-- Removed Instances are not accounted for any more. -/
theorem PoolStatus.toInt_requested_afterRemovals {s : PoolStatus} {k : Nat} (hk : k < 2 ^ 31)
    (hrequested : 0 ≤ s.requested.toInt) :
    (s.afterRemovals (.ofNat k)).requested.toInt = s.requested.toInt - k := by
  have hlt := s.requested.toInt_lt
  unfold afterRemovals
  rw [Int32.toInt_sub, Int32.toInt_ofNat_of_lt hk]
  exact Int.bmod_eq_of_le (by omega) (by omega)

/-- A pool that turns to removing Instances has recorded how many it has too many. -/
theorem PoolStatus.needed_of_settle {s : PoolStatus} {count : Int32} {fleet : Fleet}
    (hc : 0 ≤ count.toInt) (hp : 0 ≤ fleet.present.toInt)
    (h : (s.settle count fleet).phase = .cleanupNodes) :
    (s.settle count fleet).needed.toInt = count.toInt - fleet.present.toInt := by
  unfold settle at h ⊢
  split
  · next hr => simp [hr] at h
  · exact Fleet.toInt_gap hc hp

end BareMetal
