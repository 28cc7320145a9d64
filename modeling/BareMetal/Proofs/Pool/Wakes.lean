import BareMetal.Pool.Membership
import Mathlib.Data.List.Induction
import Mathlib.Data.Set.Basic

/-!
# Which pools are woken

Every event of an Instance wakes at most one pool. What is remembered of an Instance is what its last event
showed (`PoolIndex.get?_after`), so that it can be said of a whole history of events which changes of the
members of a pool wake it (`PoolIndex.wakes_changed_iff`).
-/

namespace BareMetal

namespace Instance

/-- What an event of the Instance shows of its membership, if it has a pool. -/
def membership? (i : Instance) : Option Membership :=
  i.owningPool?.map (⟨·, i.phase, i.isDeleting⟩)

/-- The Instance is about to vanish. -/
def vanishes (i : Instance) : Bool := i.isDeleting && (i.metadata.finalizers.getD []).isEmpty

/-- What is remembered after an event of the Instance. -/
def remembered? (i : Instance) : Option Membership := if i.vanishes then none else i.membership?

/-- The Instance is a managed member of a pool, and stays. -/
structure ManagedIn (i : Instance) (pool : String) : Prop where
  pool : i.owningPool? = some pool
  phase : i.phase = .managed
  stays : i.isDeleting = false

/-- The Instance is a managed member of a pool, and is being deleted but held by a finalizer. -/
structure HeldIn (i : Instance) (pool : String) : Prop where
  pool : i.owningPool? = some pool
  phase : i.phase = .managed
  deleting : i.isDeleting = true
  finalizers : i.metadata.finalizers.getD [] ≠ []

variable {i : Instance} {p : String}

/-- A managed membership is remembered as long as the Instance does not vanish. -/
theorem remembered?_managed_iff :
    (∃ last, i.remembered? = some last ∧ last.pool = p ∧ last.phase = .managed) ↔
      i.ManagedIn p ∨ i.HeldIn p := by
  have hmember : (∃ last, i.membership? = some last ∧ last.pool = p ∧ last.phase = .managed) ↔
      i.owningPool? = some p ∧ i.phase = .managed := by
    unfold membership?
    cases i.owningPool? <;> simp
  unfold remembered?
  split
  · next hvanishes =>
    rw [vanishes, Bool.and_eq_true, List.isEmpty_iff] at hvanishes
    refine iff_of_false nofun ?_
    rintro (h | h)
    · exact Bool.noConfusion (hvanishes.1.symm.trans h.stays)
    · exact h.finalizers hvanishes.2
  · next hvanishes =>
    rw [hmember]
    constructor
    · rintro ⟨hpool, hphase⟩
      cases hdeleting : i.isDeleting with
      | false => exact .inl ⟨hpool, hphase, hdeleting⟩
      | true =>
        refine .inr ⟨hpool, hphase, hdeleting, fun hnone => hvanishes ?_⟩
        simp [vanishes, hdeleting, hnone]
    · rintro (h | h)
      · exact ⟨h.pool, h.phase⟩
      · exact ⟨h.pool, h.phase⟩

end Instance

namespace PoolIndex

variable {x : PoolIndex} {i : Instance} {p name : String} {events : List Instance}

/-! ## One event -/

theorem get?_observe (x : PoolIndex) (i : Instance) (name : String) :
    (x.observe i).2.get? name = if name = i.name then i.membership? else x.get? name := by
  unfold observe Instance.membership?
  cases i.owningPool? with
  | none => exact Dict.get?_erase x i.name name
  | some pool => exact Dict.get?_insert x i.name name _

theorem get?_wake (x : PoolIndex) (i : Instance) (name : String) :
    (x.wake i).2.get? name = if name = i.name then i.remembered? else x.get? name := by
  have hwake : (x.wake i).2 = if i.vanishes then ((x.observe i).2.forget i.name).2 else (x.observe i).2 := by
    unfold wake Instance.vanishes
    dsimp only
    split <;> rfl
  rw [hwake, Instance.remembered?]
  split
  · rw [forget, Dict.get?_erase, get?_observe]
    split <;> rfl
  · rw [get?_observe]

/-- An event wakes the pool of the Instance if it is being deleted, or is a managed member and was not when
it was seen last. -/
theorem observe_eq_some_iff : (x.observe i).1 = some p ↔ i.owningPool? = some p ∧ (i.isDeleting = true ∨
    i.phase = .managed ∧ ¬∃ last, x.get? i.name = some last ∧ last.pool = p ∧ last.phase = .managed) := by
  rw [observe]
  cases i.owningPool? with
  | none => exact iff_of_false nofun nofun
  | some pool =>
    rw [Option.ite_none_right_eq_some, and_comm]
    refine and_congr_right fun hpool => ?_
    obtain rfl := Option.some.inj hpool
    rw [Bool.or_eq_true, Bool.and_eq_true, decide_eq_true_eq, or_comm]
    refine or_congr_right (and_congr_right fun _ => ?_)
    cases x.get? i.name with
    | none => simp
    | some last => simp [← not_and_or]

/-- An Instance that is about to vanish is dropped after its pool was woken. -/
theorem fst_wake (x : PoolIndex) (i : Instance) : (x.wake i).1 = (x.observe i).1 := by
  unfold wake
  dsimp only
  split <;> rfl

theorem wake_eq_some_iff : (x.wake i).1 = some p ↔ i.owningPool? = some p ∧ (i.isDeleting = true ∨
    i.phase = .managed ∧ ¬∃ last, x.get? i.name = some last ∧ last.pool = p ∧ last.phase = .managed) := by
  rw [fst_wake, observe_eq_some_iff]

/-! ## Histories -/

/-- The index after a history of events. -/
def after (events : List Instance) : PoolIndex := events.foldl (fun x i => (x.wake i).2) ∅

/-- The last event of the named Instance. -/
def latest? (events : List Instance) (name : String) : Option Instance :=
  events.reverse.find? (·.name = name)

/-- The managed members of a pool, as the last events show them. -/
def members (events : List Instance) (pool : String) : Set String :=
  {name | ∃ i, latest? events name = some i ∧ i.ManagedIn pool}

theorem after_concat (events : List Instance) (i : Instance) :
    after (events ++ [i]) = ((after events).wake i).2 := by
  simp [after]

theorem latest?_concat (events : List Instance) (i : Instance) (name : String) :
    latest? (events ++ [i]) name = if name = i.name then some i else latest? events name := by
  unfold latest?
  rw [List.reverse_concat, List.find?_cons]
  by_cases h : i.name = name
  · simp [h]
  · simp [h, Ne.symm h]

/-- The index remembers what the last event of each Instance showed. -/
theorem get?_after (events : List Instance) (name : String) :
    (after events).get? name = (latest? events name).bind (·.remembered?) := by
  induction events using List.reverseRecOn with
  | nil => rfl
  | append_singleton events i ih =>
    rw [after_concat, get?_wake, latest?_concat, ih]
    split <;> rfl

theorem mem_members_concat (events : List Instance) (i : Instance) : name ∈ members (events ++ [i]) p ↔
    if name = i.name then i.ManagedIn p else name ∈ members events p := by
  show (∃ j, latest? (events ++ [i]) name = some j ∧ j.ManagedIn p) ↔ _
  rw [latest?_concat]
  split
  · simp
  · rfl

/-- An event changes the managed members of a pool if it shows its Instance to be one and it was none before,
or the other way round. -/
theorem members_concat_ne_iff : members (events ++ [i]) p ≠ members events p ↔
    (i.name ∈ members events p ↔ ¬i.ManagedIn p) := by
  have hsame : members (events ++ [i]) p = members events p ↔
      (i.name ∈ members events p ↔ i.ManagedIn p) := by
    constructor
    · intro h
      rw [← h, mem_members_concat, if_pos rfl]
    · intro h
      refine Set.ext fun name => ?_
      rw [mem_members_concat]
      split
      · next hname => rw [hname, h]
      · rfl
  rw [ne_eq, hsame, not_iff, not_iff_comm]
  exact iff_comm

/-- The Instances that the index remembers as managed members of a pool. -/
theorem remembers_managed_iff :
    (∃ last, (after events).get? name = some last ∧ last.pool = p ∧ last.phase = .managed) ↔
      ∃ j, latest? events name = some j ∧ (j.ManagedIn p ∨ j.HeldIn p) := by
  rw [get?_after]
  cases latest? events name with
  | none => simp
  | some j => simpa using Instance.remembered?_managed_iff

/-- Which changes of its managed members wake a pool. One that is lost wakes it if the event still shows the
pool, and that the Instance is being deleted. One that is won wakes it unless it was last seen in the pool as
well, held by a finalizer. -/
theorem wakes_changed_iff (h : members (events ++ [i]) p ≠ members events p) :
    ((after events).wake i).1 = some p ↔
      (i.name ∈ members events p → i.owningPool? = some p ∧ i.isDeleting = true) ∧
      (i.name ∉ members events p → ∀ last, latest? events i.name = some last → ¬last.HeldIn p) := by
  rw [wake_eq_some_iff, remembers_managed_iff]
  by_cases hbefore : i.name ∈ members events p
  · have hcounted : ∃ j, latest? events i.name = some j ∧ (j.ManagedIn p ∨ j.HeldIn p) := by
      obtain ⟨j, hj, hmanaged⟩ := hbefore
      exact ⟨j, hj, .inl hmanaged⟩
    simp [hbefore, hcounted]
  · have hmanaged : i.ManagedIn p := not_not.1 (mt (members_concat_ne_iff.1 h).2 hbefore)
    have hheld : (∃ j, latest? events i.name = some j ∧ (j.ManagedIn p ∨ j.HeldIn p)) ↔
        ∃ j, latest? events i.name = some j ∧ j.HeldIn p :=
      exists_congr fun j => and_congr_right fun hj => or_iff_right fun hj' => hbefore ⟨j, hj, hj'⟩
    rw [hheld]
    simp [hbefore, hmanaged.pool, hmanaged.phase, hmanaged.stays]

/-- An event of an Instance with a finalizer. -/
def sighting (pool : Option String) (phase : InstancePhase) (deleting : Bool) : Instance where
  metadata := {
    name := some "edge-a", labels := pool.map fun p => .ofList [(Names.poolLabel, p)]
    deletionTimestamp := if deleting then some .epoch else none, finalizers := some [Names.deprovision] }
  status := some { phase := phase }

/-- The history of an Instance that joined. -/
def joined : List Instance := [sighting (some "edge") .ready false, sighting (some "edge") .managed false]

theorem mem_members_joined : "edge-a" ∈ members joined "edge" :=
  (mem_members_concat [sighting (some "edge") .ready false] _).2 ⟨by decide, rfl, rfl⟩

/-- A member that is being deleted wakes its pool. -/
theorem wakes_deleted : members (joined ++ [sighting (some "edge") .managed true]) "edge" ≠
      members joined "edge" ∧
    ((after joined).wake (sighting (some "edge") .managed true)).1 = some "edge" := by
  have hchanged : members (joined ++ [sighting (some "edge") .managed true]) "edge" ≠ members joined "edge" :=
    members_concat_ne_iff.2 (iff_of_true mem_members_joined fun h => nomatch h.stays)
  exact ⟨hchanged, (wakes_changed_iff hchanged).2
    ⟨fun _ => ⟨by decide, rfl⟩, fun hnot => absurd mem_members_joined hnot⟩⟩

/-- After a history, the pool is not woken by an event that changes its managed members. -/
def Misses (events : List Instance) (i : Instance) (pool : String) : Prop :=
  members (events ++ [i]) pool ≠ members events pool ∧ ((after events).wake i).1 ≠ some pool

/-- A pool is not woken when a member loses it, moves to another one or falls back. -/
theorem losses_missed : Misses joined (sighting none .managed false) "edge" ∧
    Misses joined (sighting (some "core") .managed false) "edge" ∧
    Misses joined (sighting (some "edge") .ready false) "edge" := by
  have hchanged {i : Instance} (hname : i.name = "edge-a") (hnot : ¬i.ManagedIn "edge") :
      members (joined ++ [i]) "edge" ≠ members joined "edge" :=
    members_concat_ne_iff.2 (iff_of_true (hname ▸ mem_members_joined) hnot)
  refine ⟨⟨hchanged rfl ?_, by decide⟩, ⟨hchanged rfl ?_, by decide⟩, hchanged rfl ?_, by decide⟩
  · exact fun h => absurd h.pool (by decide)
  · exact fun h => absurd h.pool (by decide)
  · exact fun h => nomatch h.phase

end PoolIndex

end BareMetal
