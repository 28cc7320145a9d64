import BareMetal.Proofs.Pool.Locks
import Mathlib.Data.List.Find
import Mathlib.Data.List.Induction

/-!
# Taking turns

Histories of handles that are started, polled and dropped in any order, over any pools. At every
moment the lock of a pool belongs to the live handle that started first, and to no other
(`Locks.Orderly`), so handles come to own the lock in the order in which they started, as far as they
were not dropped before (`Locks.takes_turns`).
-/

namespace BareMetal.Locks

variable {s : Locks} {id pool : String} {lock lock' : Nat} {h h' : Handle} {hs : List Handle}

/-! ## Histories -/

/-- What happens to a handle. -/
inductive Op
  /-- It is started, to take the lock of a pool, and polled once. -/
  | acquire (id pool : String)
  | poll (id : String)
  | drop (id : String)
deriving DecidableEq

/-- The locks after something happened. -/
def Op.apply (s : Locks) : Op → Locks
  | acquire id pool => s.acquire id pool
  | poll id => s.poll id
  | drop id => s.release id

/-- The locks after a history. -/
def after (ops : List Op) : Locks := ops.foldl Op.apply {}

/-- The live handles with their pools, in the order in which they were started, after something
happened. -/
def Op.alive (live : List (String × String)) : Op → List (String × String)
  | acquire id pool => live ++ [(id, pool)]
  | poll _ => live
  | drop id => live.filter (·.1 ≠ id)

/-- The handles that were started and not dropped, with their pools, in the order in which they were
started. -/
def alive (ops : List Op) : List (String × String) := ops.foldl Op.alive []

/-- The handles that were started. -/
def started (ops : List Op) : List String :=
  ops.filterMap fun
    | .acquire id _ => some id
    | _ => none

/-- Of the live handles for the pool, the handle was started first. -/
def IsFirst (ops : List Op) (id pool : String) : Prop :=
  (alive ops).find? (·.2 = pool) = some (id, pool)

instance (ops : List Op) (id pool : String) : Decidable (IsFirst ops id pool) :=
  inferInstanceAs (Decidable (_ = _))

/-- The handle has the lock and knows it. -/
def Holds (s : Locks) (id : String) : Prop := ∃ h ∈ s.handles, h.id = id ∧ h.stage = .held

variable {ops : List Op} {op : Op}

@[simp] theorem after_concat (ops : List Op) (op : Op) : after (ops ++ [op]) = op.apply (after ops) := by
  simp [after]

@[simp] theorem alive_concat (ops : List Op) (op : Op) : alive (ops ++ [op]) = op.alive (alive ops) := by
  simp [alive]

theorem fst_mem_started {e : String × String} (he : e ∈ alive ops) : e.1 ∈ started ops := by
  induction ops using List.reverseRecOn with
  | nil => cases he
  | append_singleton ops op ih =>
    rw [alive_concat] at he
    rw [started, List.filterMap_append, List.mem_append]
    cases op with
    | acquire id pool =>
      rcases List.mem_append.1 he with he | he
      · exact .inl (ih he)
      · obtain rfl := List.mem_singleton.1 he
        exact .inr List.mem_cons_self
    | poll id => exact .inl (ih he)
    | drop id => exact .inl (ih (List.mem_of_mem_filter he))

/-! ## The first in line -/

/-- A lock belongs to the first handle that refers to it, and every other waits for it. -/
structure Orderly (s : Locks) : Prop where
  sound : s.Sound
  wait : s.handles.Pairwise fun h h' => h.lock = h'.lock → h'.stage = .waiting
  first : ∀ {lock h}, s.handles.find? (·.lock = lock) = some h → h.stage ≠ .waiting

theorem orderly_empty : Orderly {} := ⟨sound_empty, .nil, nofun⟩

theorem isOwned_of_mem (hs : s.Orderly) (hh : h ∈ s.handles) : s.isOwned h.lock := by
  cases hfind : s.handles.find? (·.lock = h.lock) with
  | none => simpa using List.find?_eq_none.1 hfind h hh
  | some h' =>
    have hlock : h'.lock = h.lock := by simpa using List.find?_some hfind
    exact List.any_eq_true.2 ⟨h', List.mem_of_find?_eq_some hfind, by simp [hlock, hs.first hfind]⟩

theorem exists_mem_of_isOwned (ho : s.isOwned lock) : ∃ h ∈ s.handles, h.lock = lock := by
  obtain ⟨h, hh, ho⟩ := List.any_eq_true.1 ho
  exact ⟨h, hh, by simp_all⟩

/-- A new handle waits exactly if others refer to its lock. -/
theorem Orderly.append (hs : s.Orderly) {t : Locks} (ht : t.Sound) (hnew : t.handles = s.handles ++ [h])
    (hstage : h.stage = .waiting ↔ ∃ h' ∈ s.handles, h'.lock = h.lock) : t.Orderly where
  sound := ht
  wait := by
    rw [hnew]
    refine List.pairwise_append.2 ⟨hs.wait, List.pairwise_singleton _ _, fun h₁ hh₁ h₂ hh₂ hlock => ?_⟩
    obtain rfl := List.mem_singleton.1 hh₂
    exact hstage.2 ⟨h₁, hh₁, hlock⟩
  first {lock h'} hfind := by
    rw [hnew, List.find?_append] at hfind
    cases hold : s.handles.find? (·.lock = lock) with
    | some h₁ =>
      rw [hold] at hfind
      obtain rfl : h₁ = h' := by simpa using hfind
      exact hs.first hold
    | none =>
      rw [hold, Option.none_or] at hfind
      have hmem := List.mem_of_find?_eq_some hfind
      obtain rfl := List.mem_singleton.1 hmem
      have hlock : h'.lock = lock := by simpa using List.find?_some hfind
      intro hwait
      obtain ⟨h₁, hh₁, hlock₁⟩ := hstage.1 hwait
      simpa [hlock₁, hlock] using List.find?_eq_none.1 hold h₁ hh₁

theorem Orderly.acquire (hs : s.Orderly) (hid : ∀ h ∈ s.handles, h.id ≠ id) (pool : String) :
    (s.acquire id pool).Orderly := by
  have hsound := sound_acquire hs.sound hid pool
  unfold Locks.acquire at hsound ⊢
  cases hpool : s.entries.get? pool with
  | some lock =>
    rw [hpool] at hsound
    refine hs.append hsound rfl ?_
    by_cases ho : s.isOwned lock
    · simpa [ho] using exists_mem_of_isOwned ho
    · have hnone : ¬∃ h' ∈ s.handles, h'.lock = lock := by
        rintro ⟨h', hh', rfl⟩
        exact ho (isOwned_of_mem hs hh')
      simpa [ho] using hnone
  | none =>
    rw [hpool] at hsound
    refine hs.append hsound rfl ⟨nofun, ?_⟩
    rintro ⟨h', hh', hlock⟩
    exact absurd hlock (Nat.ne_of_lt (hs.sound.fresh (hs.sound.entry h' hh')))

theorem Orderly.poll (hs : s.Orderly) (id : String) : (s.poll id).Orderly where
  sound := sound_poll hs.sound id
  wait := by
    refine List.pairwise_map.2 (hs.wait.imp fun {h h'} hwait hlock => ?_)
    have hlocks : h.lock = h'.lock := by
      split at hlock <;> split at hlock <;> exact hlock
    have hstage := hwait hlocks
    rw [if_neg (by simp [hstage])]
    exact hstage
  first {lock h} hfind := by
    rw [Locks.poll, List.find?_map] at hfind
    obtain ⟨h₁, hold, rfl⟩ := Option.map_eq_some_iff.1 hfind
    have hcomp : ((fun h : Handle => decide (h.lock = lock)) ∘ fun h : Handle =>
        if h.id = id && h.stage = .granted then { h with stage := .held } else h) =
          fun h => decide (h.lock = lock) := by
      funext h
      dsimp only [Function.comp]
      split <;> rfl
    rw [hcomp] at hold
    split
    · exact nofun
    · exact hs.first hold

/-! ## Handing a lock over -/

theorem find?_grant_of_ne (hne : lock' ≠ lock) (hs : List Handle) :
    (grant lock hs).find? (·.lock = lock') = hs.find? (·.lock = lock') := by
  induction hs with
  | nil => rfl
  | cons h rest ih =>
    unfold grant
    split
    · next hnext =>
      have hlock : h.lock ≠ lock' := by
        rintro rfl
        simp [hne] at hnext
      simp [hlock]
    · by_cases hlock : h.lock = lock' <;> simp [hlock, ih]

/-- The first that waits for the lock gets it. -/
theorem find?_grant (hwait : ∀ h ∈ hs, h.lock = lock → h.stage = .waiting) :
    (grant lock hs).find? (·.lock = lock) =
      (hs.find? (·.lock = lock)).map ({ · with stage := .granted }) := by
  induction hs with
  | nil => rfl
  | cons h rest ih =>
    have hrest := ih fun h' hh' => hwait h' (List.mem_cons_of_mem _ hh')
    unfold grant
    by_cases hlock : h.lock = lock
    · simp [hlock, hwait h List.mem_cons_self hlock]
    · simp [hlock, hrest]

/-- Handing a lock over that all wait for lets all others wait. -/
theorem pairwise_grant (hp : hs.Pairwise fun h h' => h.lock = h'.lock → h'.stage = .waiting)
    (hwait : ∀ h ∈ hs, h.lock = lock → h.stage = .waiting) :
    (grant lock hs).Pairwise fun h h' => h.lock = h'.lock → h'.stage = .waiting := by
  induction hs with
  | nil => exact .nil
  | cons h rest ih =>
    obtain ⟨hhead, hrest⟩ := List.pairwise_cons.1 hp
    unfold grant
    split
    · exact List.pairwise_cons.2 ⟨fun h' hh' hlock => hhead h' hh' hlock, hrest⟩
    · next hnext =>
      refine List.pairwise_cons.2 ⟨fun h' hh' hlock => ?_,
        ih hrest fun h' hh' => hwait h' (List.mem_cons_of_mem _ hh')⟩
      rcases of_mem_grant hh' with hh' | ⟨h₁, hh₁, hlock₁, rfl⟩
      · exact hhead h' hh' hlock
      · -- the one that gets the lock would not be the first to refer to it
        have hlock : h.lock = lock := Eq.trans hlock hlock₁
        simp [hlock, hwait h List.mem_cons_self hlock] at hnext

/-! ## Dropping a handle -/

theorem eq_of_id_eq (hs : s.Sound) (hh : h ∈ s.handles) (hh' : h' ∈ s.handles) (hid : h.id = h'.id) :
    h = h' :=
  List.inj_on_of_nodup_map hs.ids hh hh' hid

/-- The first in line stays the first when another handle goes. -/
theorem find?_filter_of_ne (hfind : hs.find? (·.lock = lock) = some h) (hid : h.id ≠ id) :
    (hs.filter (·.id ≠ id)).find? (·.lock = lock) = some h := by
  induction hs with
  | nil => cases hfind
  | cons h₁ rest ih =>
    by_cases hlock : h₁.lock = lock
    · obtain rfl : h₁ = h := by simpa [hlock] using hfind
      simp [hid, hlock]
    · have hrest := ih (by simpa [hlock] using hfind)
      by_cases hid₁ : h₁.id = id
      · rw [List.filter_cons_of_neg (by simp [hid₁])]
        exact hrest
      · rw [List.filter_cons_of_pos (by simp [hid₁]), List.find?_cons_of_neg (by simp [hlock])]
        exact hrest

/-- When a handle goes, the first in line for a lock that it is not the first for stays. -/
theorem Orderly.first_of_filter (hs : s.Orderly)
    (hfind : (s.handles.filter (·.id ≠ id)).find? (·.lock = lock) = some h)
    (hother : ∀ h' ∈ s.handles, h'.id = id → h'.lock = lock → h'.stage = .waiting) :
    h.stage ≠ .waiting := by
  have hmem := List.mem_of_mem_filter (List.mem_of_find?_eq_some hfind)
  have hlock : h.lock = lock := by simpa using List.find?_some hfind
  cases hold : s.handles.find? (·.lock = lock) with
  | none => simpa [hlock] using List.find?_eq_none.1 hold h hmem
  | some h₁ =>
    have hstage := hs.first hold
    have hid : h₁.id ≠ id := fun hid =>
      hstage (hother h₁ (List.mem_of_find?_eq_some hold) hid (by simpa using List.find?_some hold))
    obtain rfl : h₁ = h := Option.some.inj ((find?_filter_of_ne hold hid).symm.trans hfind)
    exact hstage

theorem release_eq_self (hid : ∀ h ∈ s.handles, h.id ≠ id) : s.release id = s := by
  have hnone : s.handles.find? (·.id = id) = none := List.find?_eq_none.2 (by simpa using hid)
  simp [release, hnone]

/-- What dropping a live handle does. -/
theorem release_eq (hs : s.Sound) (hh : h ∈ s.handles) : s.release h.id =
    let others := s.handles.filter (·.id ≠ h.id)
    { s with
      entries := if h.stage = .held && !others.any (·.lock = h.lock) then s.entries.erase h.pool
        else s.entries
      handles := if h.stage = .waiting then others else grant h.lock others } := by
  have hfind : s.handles.find? (·.id = h.id) = some h := by
    cases hfind : s.handles.find? (·.id = h.id) with
    | none => simpa using List.find?_eq_none.1 hfind h hh
    | some h' =>
      have hid : h'.id = h.id := by simpa using List.find?_some hfind
      rw [eq_of_id_eq hs (List.mem_of_find?_eq_some hfind) hh hid]
  simp [release, hfind]

theorem Orderly.release (hs : s.Orderly) (id : String) : (s.release id).Orderly := by
  by_cases hlive : ∃ h ∈ s.handles, h.id = id
  · obtain ⟨h, hh, rfl⟩ := hlive
    have hsound := sound_release hs.sound h.id
    rw [release_eq hs.sound hh] at hsound ⊢
    dsimp only at hsound ⊢
    have hself {h' : Handle} (hh' : h' ∈ s.handles) (hid : h'.id = h.id) : h' = h :=
      eq_of_id_eq hs.sound hh' hh hid
    by_cases hstage : h.stage = .waiting
    · rw [if_pos hstage] at hsound ⊢
      exact ⟨hsound, hs.wait.filter _, fun hfirst =>
        hs.first_of_filter hfirst fun h' hh' hid _ => hself hh' hid ▸ hstage⟩
    · rw [if_neg hstage] at hsound ⊢
      have hwait (h' : Handle) (hh' : h' ∈ s.handles.filter (·.id ≠ h.id)) (hlock : h'.lock = h.lock) :
          h'.stage = .waiting := by
        obtain ⟨hh', hne⟩ := List.mem_filter.1 hh'
        exact hs.sound.waits hh hstage hh' (by simpa using hne) hlock
      refine ⟨hsound, pairwise_grant (hs.wait.filter _) hwait, fun {lock h₁} hfirst => ?_⟩
      by_cases hlock : lock = h.lock
      · subst hlock
        rw [find?_grant hwait] at hfirst
        obtain ⟨h₂, -, rfl⟩ := Option.map_eq_some_iff.1 hfirst
        exact nofun
      · rw [find?_grant_of_ne hlock] at hfirst
        refine hs.first_of_filter hfirst fun h' hh' hid hlock' => ?_
        exact absurd (hself hh' hid ▸ hlock').symm hlock
  · rw [release_eq_self fun h hh hid => hlive ⟨h, hh, hid⟩]
    exact hs

/-! ## Along a history -/

theorem map_alive_grant (lock : Nat) (hs : List Handle) :
    (grant lock hs).map (fun h => (h.id, h.pool)) = hs.map fun h => (h.id, h.pool) := by
  induction hs with
  | nil => rfl
  | cons h rest ih =>
    unfold grant
    split
    · rfl
    · simp [ih]

/-- The handles are the live ones, in order. -/
def Lists (s : Locks) (live : List (String × String)) : Prop :=
  s.handles.map (fun h => (h.id, h.pool)) = live

theorem Lists.apply {live : List (String × String)} (hl : s.Lists live) (hs : s.Sound) (op : Op) :
    (op.apply s).Lists (op.alive live) := by
  subst hl
  cases op with
  | acquire id pool =>
    simp only [Op.apply, Op.alive, acquire, Lists]
    split <;> simp
  | poll id =>
    simp only [Op.apply, Op.alive, poll, Lists, List.map_map]
    refine List.map_congr_left fun h _ => ?_
    dsimp only [Function.comp]
    split <;> rfl
  | drop id =>
    simp only [Op.apply, Op.alive, Lists, List.filter_map]
    by_cases hlive : ∃ h ∈ s.handles, h.id = id
    · obtain ⟨h, hh, rfl⟩ := hlive
      rw [release_eq hs hh]
      dsimp only
      split
      · rfl
      · exact map_alive_grant _ _
    · have hid (h : Handle) (hh : h ∈ s.handles) : h.id ≠ id := fun hid => hlive ⟨h, hh, hid⟩
      rw [release_eq_self hid]
      congr 1
      exact (List.filter_eq_self.2 (by simpa using hid)).symm

/-- In every history in which each handle is started once, the handles are the live ones, and the
first for a lock has it. -/
theorem orderly_after (hops : (started ops).Nodup) :
    (after ops).Orderly ∧ (after ops).Lists (alive ops) := by
  induction ops using List.reverseRecOn with
  | nil => exact ⟨orderly_empty, rfl⟩
  | append_singleton ops op ih =>
    rw [started, List.filterMap_append, List.nodup_append] at hops
    obtain ⟨hs, hl⟩ := ih hops.1
    rw [after_concat, alive_concat]
    refine ⟨?_, hl.apply hs.sound op⟩
    cases op with
    | acquire id pool =>
      refine hs.acquire (fun h hh hid => ?_) pool
      have hmem : (h.id, h.pool) ∈ alive ops := hl ▸ List.mem_map_of_mem hh
      exact hops.2.2 _ (fst_mem_started hmem) id List.mem_cons_self hid
    | poll id => exact hs.poll id
    | drop id => exact hs.release id

/-! ## Turns -/

/-- Handles for one pool refer to one lock. -/
theorem Sound.pool_eq_iff (hs : s.Sound) (hh : h ∈ s.handles) (hh' : h' ∈ s.handles) :
    h.pool = h'.pool ↔ h.lock = h'.lock := by
  have he := hs.entry h hh
  have he' := hs.entry h' hh'
  constructor
  · intro hpool
    rw [hpool, he'] at he
    exact (Option.some.inj he).symm
  · intro hlock
    exact hs.distinct he (hlock ▸ he')

/-- The owners are the first for their pools. -/
theorem Orderly.owner_iff (hs : s.Orderly) (hh : h ∈ s.handles) :
    h.stage ≠ .waiting ↔ s.handles.find? (·.pool = h.pool) = some h := by
  have hlocks : s.handles.find? (·.pool = h.pool) = s.handles.find? (·.lock = h.lock) := by
    refine List.find?_congr fun h' hh' => ?_
    simp only [hs.sound.pool_eq_iff hh' hh]
  rw [hlocks]
  refine ⟨fun hstage => ?_, hs.first⟩
  cases hfind : s.handles.find? (·.lock = h.lock) with
  | none => simpa using List.find?_eq_none.1 hfind h hh
  | some h' =>
    have hh' := List.mem_of_find?_eq_some hfind
    have hlock : h'.lock = h.lock := by simpa using List.find?_some hfind
    have hpool : h'.pool = h.pool := (hs.sound.pool_eq_iff hh' hh).2 hlock
    rw [hs.sound.owner_unique hh' hh hpool (hs.first hfind) hstage]

theorem isFirst_iff (hs : s.Sound) (hl : s.Lists (alive ops)) (hh : h ∈ s.handles) :
    IsFirst ops h.id h.pool ↔ s.handles.find? (·.pool = h.pool) = some h := by
  rw [IsFirst, ← hl, List.find?_map]
  constructor
  · intro hfind
    obtain ⟨h', hfind, he⟩ := Option.map_eq_some_iff.1 hfind
    obtain rfl := eq_of_id_eq hs (List.mem_of_find?_eq_some hfind) hh (Prod.mk.inj he).1
    exact hfind
  · intro hfind
    exact Option.map_eq_some_iff.2 ⟨h, hfind, rfl⟩

/-- How handles take turns after a history. -/
structure TakesTurns (ops : List Op) : Prop where
  live : (after ops).Lists (alive ops)
  one_owner : ∀ h ∈ (after ops).handles, ∀ h' ∈ (after ops).handles, h.pool = h'.pool →
    h.stage ≠ .waiting → h'.stage ≠ .waiting → h = h'
  stored : ∀ h ∈ (after ops).handles, (after ops).entries.get? h.pool = some h.lock
  in_order : ∀ h ∈ (after ops).handles, h.stage ≠ .waiting ↔ IsFirst ops h.id h.pool
  noticed : ∀ {id pool}, (id, pool) ∈ alive ops →
    (Holds (after (ops ++ [.poll id])) id ↔ IsFirst ops id pool)
  at_once : ∀ {id pool}, (∀ e ∈ alive ops, e.2 ≠ pool) →
    Holds (after (ops ++ [.acquire id pool])) id

theorem holds_poll_iff (hs : s.Sound) (hh : h ∈ s.handles) :
    Holds (s.poll h.id) h.id ↔ h.stage ≠ .waiting := by
  constructor
  · rintro ⟨h', hh', hid, hheld⟩ hwait
    obtain ⟨h₁, hh₁, rfl⟩ := List.mem_map.1 hh'
    have hid₁ : h₁.id = h.id := by
      split at hid <;> exact hid
    rw [eq_of_id_eq hs hh₁ hh hid₁, hwait] at hheld
    simp [hwait] at hheld
  · intro hstage
    refine ⟨_, List.mem_map_of_mem hh, ?_⟩
    cases hcase : h.stage with
    | waiting => exact absurd hcase hstage
    | granted | held => simp [hcase]

/-- Who starts for a pool that no handle refers to has its lock at once. -/
theorem holds_acquire (hs : s.Sound) (hpool : ∀ h ∈ s.handles, h.pool ≠ pool) :
    Holds (s.acquire id pool) id := by
  unfold acquire
  cases hentry : s.entries.get? pool with
  | none => exact ⟨_, List.mem_append_right _ List.mem_cons_self, rfl, rfl⟩
  | some lock =>
    have hidle : s.isOwned lock = false := by
      refine Bool.eq_false_iff.2 fun ho => ?_
      obtain ⟨h, hh, rfl⟩ := exists_mem_of_isOwned ho
      exact hpool h hh (hs.distinct (hs.entry h hh) hentry)
    refine ⟨_, List.mem_append_right _ List.mem_cons_self, rfl, ?_⟩
    simp [hidle]

/-- In every history in which each handle is started once, the handles take turns: the lock of a pool
has one owner at most; every live handle refers to the lock that is stored for its pool; the owner is
the live handle that was started first, which has the lock once it is polled; and a handle for a pool
without live handles has the lock at once. -/
theorem takes_turns (hops : (started ops).Nodup) : TakesTurns ops := by
  obtain ⟨hs, hl⟩ := orderly_after hops
  have hfirst {h : Handle} (hh : h ∈ (after ops).handles) :
      h.stage ≠ .waiting ↔ IsFirst ops h.id h.pool :=
    (hs.owner_iff hh).trans (isFirst_iff hs.sound hl hh).symm
  have hlive {id pool : String} (he : (id, pool) ∈ alive ops) :
      ∃ h ∈ (after ops).handles, h.id = id ∧ h.pool = pool := by
    obtain ⟨h, hh, he⟩ := List.mem_map.1 (hl ▸ he)
    exact ⟨h, hh, Prod.mk.inj he⟩
  refine ⟨hl, fun h hh h' hh' hpool ho ho' => hs.sound.owner_unique hh hh' hpool ho ho',
    hs.sound.entry, fun h hh => hfirst hh, fun {id pool} he => ?_, fun {id pool} hpool => ?_⟩
  · obtain ⟨h, hh, rfl, rfl⟩ := hlive he
    rw [after_concat, ← hfirst hh]
    exact holds_poll_iff hs.sound hh
  · rw [after_concat]
    exact holds_acquire hs.sound fun h hh => hpool _ (hl ▸ List.mem_map_of_mem hh)

/-- The second in line is dropped before its turn, so the third comes after the first. -/
def skipping : List Op :=
  [.acquire "a" "edge", .acquire "b" "edge", .acquire "c" "edge", .drop "b", .drop "a"]

theorem takes_turns_skipping : (started skipping).Nodup ∧ TakesTurns skipping ∧
    IsFirst skipping "c" "edge" ∧ Holds (after (skipping ++ [.poll "c"])) "c" := by
  have hops : (started skipping).Nodup := by decide
  have hfirst : IsFirst skipping "c" "edge" := by decide
  exact ⟨hops, takes_turns hops, hfirst, ((takes_turns hops).noticed (by decide)).2 hfirst⟩

end BareMetal.Locks
