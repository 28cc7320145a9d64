import BareMetal.Proofs.Pool.Turns
import Mathlib.Data.List.Dedup
import Mathlib.Data.List.Perm.Subperm

/-!
# What locks leave behind

After a history of handles there is an entry for each pool with live handles, and for each pool whose
last handle was dropped after it was given the lock and before it noticed (`Locks.Abandoned`). So the
entries are those of the pools with live handles exactly if no pool was abandoned
(`Locks.leaves_nothing_iff`).
-/

namespace BareMetal.Locks

variable {s : Locks} {id pool : String} {h h' : Handle} {ops : List Op} {op : Op}

/-- Some live handle is for the pool. -/
def IsLive (ops : List Op) (pool : String) : Prop := ∃ e ∈ alive ops, e.2 = pool

/-- The handle is the only live one for the pool, and was given the lock without having noticed. -/
def IsUnnoticed (ops : List Op) (id pool : String) : Prop :=
  (∃ h ∈ (after ops).handles, h.id = id ∧ h.pool = pool ∧ h.stage = .granted) ∧
    ∀ e ∈ alive ops, e.2 = pool → e.1 = id

/-- The last handle for the pool was dropped before it noticed that it had been given the lock. -/
def Abandoned (ops : List Op) (pool : String) : Prop :=
  ∃ before id later, ops = before ++ .drop id :: later ∧ IsUnnoticed before id pool ∧
    ∀ id, .acquire id pool ∉ later

/-- The pools with live handles, each once. -/
def livePools (ops : List Op) : List String := ((alive ops).map (·.2)).dedup

theorem not_abandoned_nil (pool : String) : ¬Abandoned [] pool := by
  rintro ⟨before, id, later, heq, -⟩
  simp at heq

theorem abandoned_concat : Abandoned (ops ++ [op]) pool ↔
    (Abandoned ops pool ∧ ∀ id, op ≠ .acquire id pool) ∨ ∃ id, op = .drop id ∧ IsUnnoticed ops id pool := by
  constructor
  · rintro ⟨before, id, later, heq, hunnoticed, hlater⟩
    rcases List.eq_nil_or_concat later with rfl | ⟨later, op', rfl⟩
    · obtain ⟨rfl, hop⟩ := List.append_inj' heq rfl
      exact .inr ⟨id, List.singleton_inj.1 hop, hunnoticed⟩
    · rw [List.concat_eq_append, ← List.cons_append, ← List.append_assoc] at heq
      obtain ⟨rfl, hop⟩ := List.append_inj' heq rfl
      obtain rfl := List.singleton_inj.1 hop
      simp only [List.concat_eq_append, List.mem_append, List.mem_singleton, not_or] at hlater
      exact .inl ⟨⟨before, id, later, rfl, hunnoticed, fun id => (hlater id).1⟩,
        fun id heq => (hlater id).2 heq.symm⟩
  · rintro (⟨⟨before, id, later, rfl, hunnoticed, hlater⟩, hop⟩ | ⟨id, rfl, hunnoticed⟩)
    · refine ⟨before, id, later ++ [op], by simp, hunnoticed, fun id hmem => ?_⟩
      rcases List.mem_append.1 hmem with hmem | hmem
      · exact hlater id hmem
      · exact hop id (List.mem_singleton.1 hmem).symm
    · exact ⟨ops, id, [], rfl, hunnoticed, fun _ => List.not_mem_nil⟩

/-! ## Entries along a history -/

theorem isLive_acquire {q : String} : IsLive (ops ++ [.acquire id pool]) q ↔ IsLive ops q ∨ q = pool := by
  simp [IsLive, Op.alive, or_and_right, exists_or, eq_comm]

theorem isLive_drop {q : String} :
    IsLive (ops ++ [.drop id]) q ↔ ∃ e ∈ alive ops, e.1 ≠ id ∧ e.2 = q := by
  simp [IsLive, Op.alive, and_assoc]

/-- An abandoned pool has no live handle. -/
theorem Abandoned.not_isLive (ha : Abandoned ops pool) : ¬IsLive ops pool := by
  induction ops using List.reverseRecOn with
  | nil => exact absurd ha (not_abandoned_nil pool)
  | append_singleton ops op ih =>
    rcases abandoned_concat.1 ha with ⟨hold, hop⟩ | ⟨id, rfl, -, hsole⟩
    · cases op with
      | acquire id q =>
        rw [isLive_acquire]
        rintro (hlive | rfl)
        · exact ih hold hlive
        · exact hop id rfl
      | poll id =>
        intro hlive
        exact ih hold (by simpa [IsLive, Op.alive] using hlive)
      | drop id =>
        rw [isLive_drop]
        rintro ⟨e, he, -, hpool⟩
        exact ih hold ⟨e, he, hpool⟩
    · rw [isLive_drop]
      rintro ⟨e, he, hid, hpool⟩
      exact hid (hsole e he hpool)

theorem isSome_get?_acquire {q : String} :
    ((s.acquire id pool).entries.get? q).isSome ↔ (s.entries.get? q).isSome ∨ q = pool := by
  unfold acquire
  cases hentry : s.entries.get? pool with
  | some lock =>
    by_cases hq : q = pool <;> simp [hq, hentry]
  | none =>
    by_cases hq : q = pool <;> simp [hq]

/-- Dropping a handle takes the entry away if the handle had the lock and no other is for the pool. -/
theorem isSome_get?_release (hs : s.Sound) (hh : h ∈ s.handles) {q : String} :
    ((s.release h.id).entries.get? q).isSome ↔ (s.entries.get? q).isSome ∧
      ¬(q = h.pool ∧ h.stage = .held ∧ ∀ h' ∈ s.handles, h'.pool = h.pool → h'.id = h.id) := by
  have hidle : (s.handles.filter (·.id ≠ h.id)).any (·.lock = h.lock) = false ↔
      ∀ h' ∈ s.handles, h'.pool = h.pool → h'.id = h.id := by
    simp only [List.any_eq_false, List.mem_filter, decide_eq_true_eq]
    refine ⟨fun hnone h' hh' hpool => ?_, fun hsole h' ⟨hh', hid⟩ hlock => ?_⟩
    · by_contra hid
      exact hnone h' ⟨hh', hid⟩ ((hs.pool_eq_iff hh' hh).1 hpool)
    · exact hid (hsole h' hh' ((hs.pool_eq_iff hh' hh).2 hlock))
  rw [release_eq hs hh]
  dsimp only
  rw [← hidle]
  by_cases hheld : h.stage = .held
  · cases (s.handles.filter (·.id ≠ h.id)).any (·.lock = h.lock) with
    | true => simp [hheld]
    | false => by_cases hq : q = h.pool <;> simp [hheld, hq]
  · simp [hheld]

theorem exists_handle (hl : s.Lists (alive ops)) {e : String × String} (he : e ∈ alive ops) :
    ∃ h ∈ s.handles, h.id = e.1 ∧ h.pool = e.2 := by
  obtain ⟨h, hh, rfl⟩ := List.mem_map.1 (hl ▸ he)
  exact ⟨h, hh, rfl, rfl⟩

theorem mem_alive (hl : s.Lists (alive ops)) (hh : h ∈ s.handles) : (h.id, h.pool) ∈ alive ops :=
  hl ▸ List.mem_map_of_mem hh

/-- The only handle for a pool owns its lock. -/
theorem Orderly.owner_of_only (hs : s.Orderly) (hh : h ∈ s.handles)
    (honly : ∀ h' ∈ s.handles, h'.pool = h.pool → h'.id = h.id) : h.stage ≠ .waiting := by
  rw [hs.owner_iff hh]
  cases hfind : s.handles.find? (·.pool = h.pool) with
  | none => simpa using List.find?_eq_none.1 hfind h hh
  | some h' =>
    have hh' := List.mem_of_find?_eq_some hfind
    rw [eq_of_id_eq hs.sound hh' hh (honly h' hh' (by simpa using List.find?_some hfind))]

/-- Dropping a live handle leaves an entry for the pools that had one, unless it was the only handle
for its pool and had noticed that it had the lock. -/
theorem isSome_get?_drop (hs : (after ops).Orderly) (hl : (after ops).Lists (alive ops))
    (hh : h ∈ (after ops).handles)
    (hold : ((after ops).entries.get? pool).isSome ↔ IsLive ops pool ∨ Abandoned ops pool) :
    (((after ops).release h.id).entries.get? pool).isSome ↔
      IsLive (ops ++ [.drop h.id]) pool ∨ Abandoned ops pool ∨ IsUnnoticed ops h.id pool := by
  have hunique {h' : Handle} (hh' : h' ∈ (after ops).handles) (hid : h'.id = h.id) : h' = h :=
    eq_of_id_eq hs.sound hh' hh hid
  rw [isSome_get?_release hs.sound hh, hold, isLive_drop]
  by_cases hpool : pool = h.pool
  · subst hpool
    have hlive : IsLive ops h.pool := ⟨_, mem_alive hl hh, rfl⟩
    have hnot : ¬Abandoned ops h.pool := fun ha => ha.not_isLive hlive
    simp only [hlive, hnot, true_or, true_and, false_or]
    by_cases honly : ∀ h' ∈ (after ops).handles, h'.pool = h.pool → h'.id = h.id
    · have hstage := hs.owner_of_only hh honly
      have hothers : ¬∃ e ∈ alive ops, e.1 ≠ h.id ∧ e.2 = h.pool := by
        rintro ⟨e, he, hid, hpool⟩
        obtain ⟨h', hh', hid', hpool'⟩ := exists_handle hl he
        exact hid (hid' ▸ honly h' hh' (hpool'.trans hpool))
      have hunnoticed : IsUnnoticed ops h.id h.pool ↔ h.stage = .granted := by
        constructor
        · rintro ⟨⟨h', hh', hid, -, hgranted⟩, -⟩
          exact hunique hh' hid ▸ hgranted
        · refine fun hgranted => ⟨⟨h, hh, rfl, rfl, hgranted⟩, fun e he hpool => ?_⟩
          obtain ⟨h', hh', hid', hpool'⟩ := exists_handle hl he
          exact hid' ▸ honly h' hh' (hpool'.trans hpool)
      cases hcase : h.stage with
      | waiting => exact absurd hcase hstage
      | granted => simp [hunnoticed, hcase]
      | held => exact ⟨fun hkept => absurd ⟨rfl, honly⟩ hkept, by simp [hunnoticed, hcase, hothers]⟩
    · have hothers : ∃ e ∈ alive ops, e.1 ≠ h.id ∧ e.2 = h.pool := by
        push Not at honly
        obtain ⟨h', hh', hpool, hid⟩ := honly
        exact ⟨_, mem_alive hl hh', hid, hpool⟩
      exact ⟨fun _ => .inl hothers, fun _ ⟨_, honly'⟩ => honly honly'⟩
  · have hlive : (∃ e ∈ alive ops, e.1 ≠ h.id ∧ e.2 = pool) ↔ IsLive ops pool := by
      refine ⟨fun ⟨e, he, _, hp⟩ => ⟨e, he, hp⟩, fun ⟨e, he, hp⟩ => ⟨e, he, fun hid => hpool ?_, hp⟩⟩
      obtain ⟨h', hh', hid', hpool'⟩ := exists_handle hl he
      rw [← hp, ← hpool', hunique hh' (hid'.trans hid)]
    have hunnoticed : ¬IsUnnoticed ops h.id pool := by
      rintro ⟨⟨h', hh', hid, rfl, -⟩, -⟩
      exact hpool (hunique hh' hid ▸ rfl)
    simp [hlive, hunnoticed, hpool]

/-- The pools with an entry are those with live handles and those that were abandoned. -/
theorem isSome_get?_iff (hops : (started ops).Nodup) :
    ((after ops).entries.get? pool).isSome ↔ IsLive ops pool ∨ Abandoned ops pool := by
  induction ops using List.reverseRecOn with
  | nil => simp [after, IsLive, alive, not_abandoned_nil]
  | append_singleton ops op ih =>
    have hold : (started ops).Nodup := by
      rw [started, List.filterMap_append, List.nodup_append] at hops
      exact hops.1
    have ih := ih hold
    obtain ⟨hs, hl⟩ := orderly_after hold
    rw [after_concat, abandoned_concat]
    cases op with
    | acquire id q =>
      rw [Op.apply, isSome_get?_acquire, isLive_acquire, ih]
      by_cases hq : pool = q
      · simp [hq]
      · simp [hq, Ne.symm hq]
    | poll id =>
      have hlive : IsLive (ops ++ [.poll id]) pool ↔ IsLive ops pool := by simp [IsLive, Op.alive]
      rw [hlive]
      simpa [Op.apply, poll] using ih
    | drop id =>
      have hunnoticed : (∃ id', Op.drop id = .drop id' ∧ IsUnnoticed ops id' pool) ↔
          IsUnnoticed ops id pool := by simp
      simp only [hunnoticed, ne_eq, reduceCtorEq, not_false_eq_true, implies_true, and_true]
      by_cases hlive : ∃ h ∈ (after ops).handles, h.id = id
      · obtain ⟨h, hh, rfl⟩ := hlive
        exact isSome_get?_drop hs hl hh ih
      · have hid (h : Handle) (hh : h ∈ (after ops).handles) : h.id ≠ id := fun hid => hlive ⟨h, hh, hid⟩
        have hnot : ¬IsUnnoticed ops id pool := by
          rintro ⟨⟨h, hh, he, -⟩, -⟩
          exact hid h hh he
        have halive (e : String × String) (he : e ∈ alive ops) : e.1 ≠ id := by
          obtain ⟨h, hh, he, -⟩ := exists_handle hl he
          exact he ▸ hid h hh
        have hsame : IsLive (ops ++ [.drop id]) pool ↔ IsLive ops pool := by
          rw [isLive_drop]
          constructor
          · rintro ⟨e, he, -, hp⟩
            exact ⟨e, he, hp⟩
          · rintro ⟨e, he, hp⟩
            exact ⟨e, he, halive e he, hp⟩
        rw [Op.apply, release_eq_self hid, ih, hsame]
        simp [hnot]

/-! ## Nothing is left -/

theorem mem_livePools : pool ∈ livePools ops ↔ IsLive ops pool := by
  rw [livePools, List.mem_dedup, List.mem_map]
  rfl

theorem livePools_eq_nil_iff : livePools ops = [] ↔ alive ops = [] := by
  rw [livePools, List.dedup_eq_nil, List.map_eq_nil_iff]

/-- In every history in which each handle is started once, there are as many entries as pools with
live handles, and none exactly without live handles, if and only if no pool was abandoned: of no pool
was the last handle dropped between being given the lock and noticing it. -/
theorem leaves_nothing_iff (hops : (started ops).Nodup) :
    ((after ops).size = (livePools ops).length ∧
      ((after ops).entries.isEmpty = true ↔ alive ops = [])) ↔ ∀ pool, ¬Abandoned ops pool := by
  have hkeys {pool : String} : pool ∈ (after ops).entries.keys ↔ IsLive ops pool ∨ Abandoned ops pool :=
    Dict.mem_keys_iff.trans (isSome_get?_iff hops)
  have hsize : (after ops).size = (after ops).entries.keys.length := by
    simp [size, Dict.size, Dict.keys]
  have hempty : (after ops).entries.isEmpty = true ↔ (after ops).entries.keys = [] := by
    simp [Dict.isEmpty, Dict.keys]
  have hsub : livePools ops ⊆ (after ops).entries.keys := fun pool hpool =>
    hkeys.2 (.inl (mem_livePools.1 hpool))
  rw [hsize, hempty]
  constructor
  · rintro ⟨hlength, -⟩ pool ha
    -- as many entries as live pools, so every entry is one of them
    have hperm := ((List.nodup_dedup _).subperm hsub).perm_of_length_le hlength.le
    exact ha.not_isLive (mem_livePools.1 (hperm.mem_iff.2 (hkeys.2 (.inr ha))))
  · intro hnone
    have hperm : (after ops).entries.keys.Perm (livePools ops) := by
      refine (List.perm_ext_iff_of_nodup (Dict.nodup_keys _) (List.nodup_dedup _)).2 fun pool => ?_
      exact hkeys.trans ((or_iff_left (hnone pool)).trans mem_livePools.symm)
    refine ⟨hperm.length_eq, ?_⟩
    rw [← livePools_eq_nil_iff]
    exact ⟨fun h => (h ▸ hperm).symm.eq_nil, fun h => (h ▸ hperm).eq_nil⟩

/-- Both handles for a pool are dropped, the second one after it was given the lock; it notices or
does not. -/
def handedOver (notices : Bool) : List Op :=
  [.acquire "a" "edge", .acquire "b" "edge", .drop "a"] ++ (if notices then [.poll "b"] else []) ++
    [.drop "b"]

/-- A handle that notices the lock leaves nothing. -/
theorem leaves_nothing_noticed : (started (handedOver true)).Nodup ∧
    (after (handedOver true)).size = 0 ∧ ∀ pool, ¬Abandoned (handedOver true) pool := by
  have hops : (started (handedOver true)).Nodup := by decide
  have hsize : (after (handedOver true)).size = 0 := by decide
  have hempty : (after (handedOver true)).entries.isEmpty = true ↔ alive (handedOver true) = [] := by
    decide
  exact ⟨hops, hsize, (leaves_nothing_iff hops).1 ⟨hsize.trans (by decide), hempty⟩⟩

/-- A handle that does not leaves the entry, and no handle is live. -/
theorem leaves_entry : (started (handedOver false)).Nodup ∧ alive (handedOver false) = [] ∧
    livePools (handedOver false) = [] ∧ (after (handedOver false)).size = 1 ∧
    (after (handedOver false)).entries.isEmpty = false := by
  decide

end BareMetal.Locks
