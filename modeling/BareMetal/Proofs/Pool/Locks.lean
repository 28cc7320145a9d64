import BareMetal.Pool.Locks
import Mathlib.Data.List.Pairwise
import Mathlib.Data.List.Nodup

/-!
# Locks are sound

Whatever sequence of taking, noticing and dropping: every live handle refers to the lock that is
stored for its pool, two pools never share a lock, and a lock has one owner at most.
-/

namespace BareMetal.Locks

variable {s : Locks} {id pool : String} {lock : Nat} {h h' : Handle} {hs' : List Handle}

/-- Of two handles that refer to one lock, one waits. -/
def Handle.Apart (h h' : Handle) : Prop :=
  h.lock = h'.lock → h.stage = .waiting ∨ h'.stage = .waiting

instance : Std.Symm Handle.Apart := ⟨fun _ _ ha hl => (ha hl.symm).symm⟩

/-- What holds of the locks at any time. -/
structure Sound (s : Locks) : Prop where
  ids : (s.handles.map (·.id)).Nodup
  entry : ∀ h ∈ s.handles, s.entries.get? h.pool = some h.lock
  distinct : ∀ {pool pool' lock}, s.entries.get? pool = some lock →
    s.entries.get? pool' = some lock → pool = pool'
  fresh : ∀ {pool lock}, s.entries.get? pool = some lock → lock < s.fresh
  apart : s.handles.Pairwise Handle.Apart

theorem sound_empty : Sound {} := ⟨.nil, nofun, nofun, nofun, .nil⟩

/-- A lock has one owner at most. -/
theorem Sound.owner_unique (hs : s.Sound) (hh : h ∈ s.handles) (hh' : h' ∈ s.handles)
    (hpool : h.pool = h'.pool) (ho : h.stage ≠ .waiting) (ho' : h'.stage ≠ .waiting) : h = h' := by
  by_contra hne
  have hlock : h.lock = h'.lock := by
    have he := hs.entry h hh
    rw [hpool, hs.entry h' hh'] at he
    exact (Option.some.inj he).symm
  have hapart := List.Pairwise.forall hs.apart hh hh' hne hlock
  exact hapart.elim ho ho'

theorem Sound.ne_of_get?_none (hs : s.Sound) (hpool : s.entries.get? pool = none)
    (hh : h ∈ s.handles) : h.pool ≠ pool := by
  intro he
  have := hs.entry h hh
  rw [he, hpool] at this
  cases this

/-- Handles can go, and the owners among them can become waiting. -/
theorem Sound.of_handles (hs : s.Sound) (hids : (hs'.map (·.id)).Nodup)
    (hentry : ∀ h' ∈ hs', ∃ h ∈ s.handles, h.pool = h'.pool ∧ h.lock = h'.lock)
    (hapart : hs'.Pairwise Handle.Apart) : ({ s with handles := hs' } : Locks).Sound where
  ids := hids
  entry h' hh' := by
    obtain ⟨h, hh, hpool, hlock⟩ := hentry h' hh'
    rw [← hpool, ← hlock]
    exact hs.entry h hh
  distinct := hs.distinct
  fresh := hs.fresh
  apart := hapart

/-! ## Taking a lock -/

theorem eq_waiting_of_not_isOwned (ho : s.isOwned lock = false) (hh : h ∈ s.handles)
    (hlock : h.lock = lock) : h.stage = .waiting := by
  by_contra hstage
  have : s.isOwned lock = true := List.any_eq_true.2 ⟨h, hh, by simp [hlock, hstage]⟩
  simp [ho] at this

theorem sound_acquire (hs : s.Sound) (hid : ∀ h ∈ s.handles, h.id ≠ id) (pool : String) :
    (s.acquire id pool).Sound := by
  have hids (lock : Nat) (stage : Stage) :
      ((s.handles ++ [Handle.mk id pool lock stage]).map (·.id)).Nodup := by
    rw [List.map_append]
    refine List.nodup_append.2 ⟨hs.ids, List.nodup_singleton _, ?_⟩
    simpa using hid
  unfold acquire
  cases hpool : s.entries.get? pool with
  | some lock =>
    refine ⟨hids _ _, fun h hh => ?_, hs.distinct, hs.fresh, ?_⟩
    · rcases List.mem_append.1 hh with hh | hh
      · exact hs.entry h hh
      · obtain rfl := List.mem_singleton.1 hh
        exact hpool
    · refine List.pairwise_append.2 ⟨hs.apart, List.pairwise_singleton _ _, ?_⟩
      intro h hh h' hh' hl
      obtain rfl := List.mem_singleton.1 hh'
      cases ho : s.isOwned lock with
      | true => exact .inr (by simp)
      | false => exact .inl (eq_waiting_of_not_isOwned ho hh hl)
  | none =>
    have hlt : ∀ h ∈ s.handles, h.lock < s.fresh := fun h hh => hs.fresh (hs.entry h hh)
    refine ⟨hids _ _, fun h hh => ?_, fun {p p' lock} hp hp' => ?_, fun {p lock} hp => ?_, ?_⟩
    · rcases List.mem_append.1 hh with hh | hh
      · simpa [hs.ne_of_get?_none hpool hh] using hs.entry h hh
      · obtain rfl := List.mem_singleton.1 hh
        simp
    · rw [Dict.get?_insert] at hp hp'
      split at hp <;> split at hp'
      · simp [*]
      · cases hp
        exact absurd (hs.fresh hp') (Nat.lt_irrefl _)
      · cases hp'
        exact absurd (hs.fresh hp) (Nat.lt_irrefl _)
      · exact hs.distinct hp hp'
    · rw [Dict.get?_insert] at hp
      split at hp
      · cases hp
        exact Nat.lt_succ_self _
      · exact Nat.lt_succ_of_lt (hs.fresh hp)
    · refine List.pairwise_append.2 ⟨hs.apart, List.pairwise_singleton _ _, ?_⟩
      intro h hh h' hh' hl
      obtain rfl := List.mem_singleton.1 hh'
      exact absurd hl (Nat.ne_of_lt (hlt h hh))

theorem mem_acquire (hh : h ∈ s.handles) : h ∈ (s.acquire id pool).handles := by
  unfold acquire
  split <;> exact List.mem_append_left _ hh

/-! ## Noticing a lock -/

/-- Handles can change their stage, as long as those that wait go on waiting and no other does. -/
theorem Sound.map (hs : s.Sound) {f : Handle → Handle} (hid : ∀ h, (f h).id = h.id)
    (hpool : ∀ h, (f h).pool = h.pool) (hlock : ∀ h, (f h).lock = h.lock)
    (hstage : ∀ h, h.stage = .waiting → (f h).stage = .waiting) :
    ({ s with handles := s.handles.map f } : Locks).Sound := by
  refine hs.of_handles ?_ (fun h' hh' => ?_) ?_
  · have : (s.handles.map f).map (·.id) = s.handles.map (·.id) := by simp [hid]
    rw [this]
    exact hs.ids
  · obtain ⟨h, hh, rfl⟩ := List.mem_map.1 hh'
    exact ⟨h, hh, (hpool h).symm, (hlock h).symm⟩
  · refine List.pairwise_map.2 (hs.apart.imp fun {h h'} ha hl => ?_)
    rw [hlock, hlock] at hl
    exact (ha hl).imp (hstage h) (hstage h')

theorem sound_poll (hs : s.Sound) (id : String) : (s.poll id).Sound := by
  refine hs.map (fun h => ?_) (fun h => ?_) (fun h => ?_) fun h hstage => ?_
  · split <;> rfl
  · split <;> rfl
  · split <;> rfl
  · rw [if_neg (by simp [hstage])]
    exact hstage

theorem mem_poll (hh : h ∈ s.handles) (hstage : h.stage = .held) : h ∈ (s.poll id).handles := by
  refine List.mem_map.2 ⟨h, hh, if_neg ?_⟩
  simp [hstage]

/-! ## Handing a lock over -/

theorem map_id_grant (lock : Nat) (hs : List Handle) :
    (grant lock hs).map (·.id) = hs.map (·.id) := by
  induction hs with
  | nil => rfl
  | cons h rest ih =>
    unfold grant
    split
    · rfl
    · simp [ih]

theorem of_mem_grant {hs : List Handle} (hh : h' ∈ grant lock hs) :
    h' ∈ hs ∨ ∃ h ∈ hs, h.lock = lock ∧ h' = { h with stage := .granted } := by
  induction hs with
  | nil => cases hh
  | cons h rest ih =>
    unfold grant at hh
    split at hh
    · next hnext =>
      have hlock : h.lock = lock := by simp_all
      rcases List.mem_cons.1 hh with rfl | hh
      · exact .inr ⟨h, List.mem_cons_self, hlock, rfl⟩
      · exact .inl (List.mem_cons_of_mem _ hh)
    · rcases List.mem_cons.1 hh with rfl | hh
      · exact .inl List.mem_cons_self
      · refine (ih hh).imp (List.mem_cons_of_mem _) ?_
        rintro ⟨h₁, hh₁, hrest⟩
        exact ⟨h₁, List.mem_cons_of_mem _ hh₁, hrest⟩

/-- Whoever does not wait is passed over. -/
theorem mem_grant {hs : List Handle} (hh : h ∈ hs) (hstage : h.stage ≠ .waiting) :
    h ∈ grant lock hs := by
  induction hs with
  | nil => cases hh
  | cons h₁ rest ih =>
    unfold grant
    split
    · next hnext =>
      rcases List.mem_cons.1 hh with rfl | hh
      · simp [hstage] at hnext
      · exact List.mem_cons_of_mem _ hh
    · rcases List.mem_cons.1 hh with rfl | hh
      · exact List.mem_cons_self
      · exact List.mem_cons_of_mem _ (ih hh)

theorem apart_grant {hs : List Handle} (ha : hs.Pairwise Handle.Apart)
    (hwait : ∀ h ∈ hs, h.lock = lock → h.stage = .waiting) :
    (grant lock hs).Pairwise Handle.Apart := by
  induction hs with
  | nil => exact .nil
  | cons h rest ih =>
    obtain ⟨hhead, hrest⟩ := List.pairwise_cons.1 ha
    have hwaitRest : ∀ h ∈ rest, h.lock = lock → h.stage = .waiting :=
      fun h hh => hwait h (List.mem_cons_of_mem _ hh)
    unfold grant
    split
    · next hnext =>
      have hlock : h.lock = lock := by simp_all
      refine List.pairwise_cons.2 ⟨fun h' hh' hl => .inr ?_, hrest⟩
      exact hwaitRest h' hh' (hl.symm.trans hlock)
    · refine List.pairwise_cons.2 ⟨fun h' hh' hl => ?_, ih hrest hwaitRest⟩
      rcases of_mem_grant hh' with hh' | ⟨h₁, -, hlock, rfl⟩
      · exact hhead h' hh' hl
      · exact .inl (hwait h List.mem_cons_self (hl.trans hlock))

theorem Sound.grant (hs : s.Sound) (hwait : ∀ h ∈ s.handles, h.lock = lock → h.stage = .waiting) :
    ({ s with handles := grant lock s.handles } : Locks).Sound := by
  refine hs.of_handles ?_ (fun h' hh' => ?_) (apart_grant hs.apart hwait)
  · rw [map_id_grant]
    exact hs.ids
  · rcases of_mem_grant hh' with hh' | ⟨h, hh, -, rfl⟩
    · exact ⟨h', hh', rfl, rfl⟩
    · exact ⟨h, hh, rfl, rfl⟩

/-! ## Dropping a handle -/

theorem Sound.filter (hs : s.Sound) (f : Handle → Bool) :
    ({ s with handles := s.handles.filter f } : Locks).Sound :=
  hs.of_handles (hs.ids.sublist (List.filter_sublist.map _))
    (fun h hh => ⟨h, List.mem_of_mem_filter hh, rfl, rfl⟩) (hs.apart.filter f)

theorem Sound.erase (hs : s.Sound) (hpool : ∀ h ∈ s.handles, h.pool ≠ pool) :
    ({ s with entries := s.entries.erase pool } : Locks).Sound := by
  have hget {q : String} {l : Nat} (h : (s.entries.erase pool).get? q = some l) :
      s.entries.get? q = some l := by
    rw [Dict.get?_erase] at h
    split at h
    · cases h
    · exact h
  refine ⟨hs.ids, fun h hh => ?_, fun hp hp' => hs.distinct (hget hp) (hget hp'),
    fun hp => hs.fresh (hget hp), hs.apart⟩
  rw [Dict.get?_erase, if_neg (hpool h hh)]
  exact hs.entry h hh

/-- Who else refers to the lock of an owner waits for it. -/
theorem Sound.waits (hs : s.Sound) (hh : h ∈ s.handles) (ho : h.stage ≠ .waiting)
    (hh' : h' ∈ s.handles) (hne : h'.id ≠ h.id) (hlock : h'.lock = h.lock) :
    h'.stage = .waiting := by
  have hapart := List.Pairwise.forall hs.apart hh' hh (by rintro rfl; exact hne rfl) hlock
  exact hapart.resolve_right ho

theorem sound_release (hs : s.Sound) (id : String) : (s.release id).Sound := by
  unfold release
  split
  · exact hs
  next h hfind =>
  have hh : h ∈ s.handles := List.mem_of_find?_eq_some hfind
  have hid : h.id = id := by simpa using List.find?_some hfind
  have hothers := hs.filter (·.id ≠ id)
  -- Whoever shares the pool shares the lock, so the entry of an idle lock is not referred to.
  have herase (hidle : !(s.handles.filter (·.id ≠ id)).any (·.lock = h.lock)) :
      ∀ h' ∈ s.handles.filter (·.id ≠ id), h'.pool ≠ h.pool := by
    intro h' hh' hpool
    have hlock : h'.lock = h.lock := by
      have he := hothers.entry h' hh'
      rw [hpool] at he
      exact Option.some.inj (he.symm.trans (hs.entry h hh))
    have : (s.handles.filter (·.id ≠ id)).any (·.lock = h.lock) = true :=
      List.any_eq_true.2 ⟨h', hh', by simpa using hlock⟩
    rw [this] at hidle
    cases hidle
  by_cases hstage : h.stage = .waiting
  · simpa [hstage] using hothers
  have hwait : ∀ h' ∈ s.handles.filter (·.id ≠ id), h'.lock = h.lock → h'.stage = .waiting := by
    intro h' hh' hlock
    obtain ⟨hh', hne⟩ := List.mem_filter.1 hh'
    exact hs.waits hh hstage hh' (by simpa [hid] using hne) hlock
  dsimp only
  rw [if_neg hstage]
  split
  · next hidle => exact (hothers.erase (herase (Bool.and_eq_true_iff.1 hidle).2)).grant hwait
  · exact hothers.grant hwait

/-- Dropping a handle takes nothing from another owner. -/
theorem mem_release (hh : h ∈ s.handles) (hid : h.id ≠ id) (hstage : h.stage ≠ .waiting) :
    h ∈ (s.release id).handles := by
  have hothers : h ∈ s.handles.filter (·.id ≠ id) := List.mem_filter.2 ⟨hh, by simpa using hid⟩
  unfold release
  split
  · exact hh
  · dsimp only
    split
    · exact hothers
    · exact mem_grant hothers hstage

end BareMetal.Locks
