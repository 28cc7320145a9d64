import BareMetal.Proofs.Pool.Conduct
import BareMetal.Proofs.Pool.Locks

/-!
# Growth

Any number of passes that create the members of one pool, made at the same time and sharing the
locks. Their steps interleave in any order, and each can be dropped at any point. A pass knows the
others only as a changing outside (`PoolSite.Drifts`): under the lock, it alone makes members. So
the fleet never exceeds the wanted count, or what it was at the start.
-/

open Relation

namespace BareMetal

open PoolSite

/-! ## Crowds -/

/-- A pass in a crowd: what is left of it, and whether it holds the lock. -/
structure CrowdPass where
  program : Program PoolStep PoolStep.Answer (Except Failure Followup × Backoff)
  inside : Bool := false

/-- Passes over one pool that are made at the same time. -/
structure Crowd where
  site : PoolSite
  locks : Locks := {}
  /-- The passes that are being made. -/
  passes : Dict CrowdPass := ∅

/-- The site as a pass meets it that holds the lock, or does not. -/
def PoolSite.under (inside : Bool) (w : PoolSite) : PoolSite := { w with inside := inside }

namespace Crowd

/-- Lets a pass begin or go on. -/
def turn (x : Crowd) (id : String) (g : CrowdPass) : Crowd :=
  { x with passes := x.passes.insert id g }

/-- Drops a pass and its handle. -/
def drop (x : Crowd) (id : String) : Crowd :=
  { x with locks := x.locks.release id, passes := x.passes.erase id }

/-- One step of a crowd over the pool with the name and the wanted count. A pass asks for the lock
and goes on when its handle holds it, and lets the handle go when it unlocks. Every pass looks at a
pool of its own. Handles without a pass are those of others. -/
inductive Step (name : String) (count : Int32) : Crowd → Crowd → Prop
  | begin {x id s b} {p : Pool} : x.passes.get? id = none → (∀ h ∈ x.locks.handles, h.id ≠ id) →
    p.name = name → p.spec.count = count → p.phase = .tokenReady →
    Step name count x (x.turn id ⟨p.pass s b, false⟩)
  | ask {x id n next i} : x.passes.get? id = some ⟨.call (.lock n) next, i⟩ →
    (∀ h ∈ x.locks.handles, h.id ≠ id) →
    Step name count x { x with locks := x.locks.acquire id n }
  | notice {x id} : Step name count x { x with locks := x.locks.poll id }
  | enter {x n next i h} : h ∈ x.locks.handles → h.stage = .held → h.pool = n →
    x.passes.get? h.id = some ⟨.call (.lock n) next, i⟩ →
    Step name count x (x.turn h.id ⟨next (), true⟩)
  | unlock {x id n next i} : x.passes.get? id = some ⟨.call (.unlock n) next, i⟩ →
    Step name count x ({ x with locks := x.locks.release id }.turn id ⟨next (), false⟩)
  | call {x w' id t next i a} : x.passes.get? id = some ⟨.call t next, i⟩ → t.free →
    t.Answers (x.site.under i) a w' →
    Step name count x ({ x with site := w' }.turn id ⟨next a, i⟩)
  | drop {x id} : Step name count x (x.drop id)
  | foreign {x id pool} : x.passes.get? id = none → (∀ h ∈ x.locks.handles, h.id ≠ id) →
    Step name count x { x with locks := x.locks.acquire id pool }
  | leave {x members} : Fleet.live members ≤ x.site.live →
    Step name count x { x with site := x.site.shed members }
  | edit {x} {p : Pool} : Step name count x { x with site := { x.site with object := p } }

/-- A run of a crowd leads from the first to the second. -/
def Reaches (name : String) (count : Int32) : Crowd → Crowd → Prop :=
  ReflTransGen (Step name count)

/-! ## What a step keeps -/

variable {name : String} {count : Int32} {bound : Int} {x y : Crowd} {w : PoolSite} {l : Locks}
  {id id' : String} {g g' : CrowdPass}

/-- What the pass does next is proper, whatever the others do. -/
def Behaves (name : String) (count : Int32) (g : CrowdPass) (w : PoolSite) : Prop :=
  g.program.Safe (outside false) (PoolStep.Proper false name count) (fun _ _ => True)
    (w.under g.inside)

/-- The pass has a handle that holds the lock of the pool. -/
def Owns (name : String) (id : String) (l : Locks) : Prop :=
  ∃ h ∈ l.handles, h.id = id ∧ h.pool = name ∧ h.stage = .held

/-- What holds of a crowd at any time. -/
structure Orderly (name : String) (count : Int32) (bound : Int) (x : Crowd) : Prop where
  locks : x.locks.Sound
  owns : ∀ {id g}, x.passes.get? id = some g → g.inside = true → Owns name id x.locks
  behaves : ∀ {id g}, x.passes.get? id = some g → Behaves name count g x.site
  live : (x.site.live : Int) ≤ bound

/-- At most one pass holds the lock. -/
theorem Orderly.one_inside (hx : x.Orderly name count bound) (hg : x.passes.get? id = some g)
    (hg' : x.passes.get? id' = some g') (hi : g.inside = true) (hi' : g'.inside = true) :
    id = id' := by
  obtain ⟨h, hh, rfl, hpool, hstage⟩ := hx.owns hg hi
  obtain ⟨h', hh', rfl, hpool', hstage'⟩ := hx.owns hg' hi'
  rw [hx.locks.owner_unique hh hh' (hpool.trans hpool'.symm) (by simp [hstage]) (by simp [hstage'])]

/-- To the other passes, a step is a change of their outside. -/
theorem Behaves.others (h : Behaves name count g w) {w' : PoolSite}
    (hlive : g.inside = true → w'.live ≤ w.live) : Behaves name count g w' :=
  Program.Safe.drift h (.others rfl rfl hlive)

theorem Owns.acquire (h : Owns name id l) (pool : String) : Owns name id (l.acquire id' pool) := by
  obtain ⟨h, hh, hrest⟩ := h
  exact ⟨h, Locks.mem_acquire hh, hrest⟩

theorem Owns.poll (h : Owns name id l) : Owns name id (l.poll id') := by
  obtain ⟨h, hh, hid, hpool, hstage⟩ := h
  exact ⟨h, Locks.mem_poll hh hstage, hid, hpool, hstage⟩

theorem Owns.release (h : Owns name id l) (hne : id ≠ id') : Owns name id (l.release id') := by
  obtain ⟨h, hh, rfl, hpool, hstage⟩ := h
  exact ⟨h, Locks.mem_release hh hne (by simp [hstage]), rfl, hpool, hstage⟩

/-- The locks can change as long as every pass that holds one keeps its handle. -/
theorem Orderly.relock (hx : x.Orderly name count bound) (hl : l.Sound)
    (hkeep : ∀ {id g}, x.passes.get? id = some g → g.inside = true → Owns name id x.locks →
      Owns name id l) :
    ({ x with locks := l } : Crowd).Orderly name count bound where
  locks := hl
  owns hg hi := hkeep hg hi (hx.owns hg hi)
  behaves := hx.behaves
  live := hx.live

/-- The site can change by itself as long as no member comes. -/
theorem Orderly.resite (hx : x.Orderly name count bound) (hlive : w.live ≤ x.site.live) :
    ({ x with site := w } : Crowd).Orderly name count bound where
  locks := hx.locks
  owns := hx.owns
  behaves hg := (hx.behaves hg).others fun _ => hlive
  live := Int.le_trans (Int.ofNat_le.2 hlive) hx.live

/-- A pass can go on, if it behaves afterwards and owns the lock when it is meant to, and if
members come only while no other pass holds the lock. -/
theorem Orderly.turn (hx : x.Orderly name count bound) (hb : Behaves name count g w)
    (ho : g.inside = true → Owns name id x.locks) (hlive : (w.live : Int) ≤ bound)
    (hothers : ∀ {id' g'}, id' ≠ id → x.passes.get? id' = some g' → g'.inside = true →
      w.live ≤ x.site.live) :
    ({ x with site := w }.turn id g : Crowd).Orderly name count bound where
  locks := hx.locks
  owns hg' hi := by
    rw [Crowd.turn, Dict.get?_insert] at hg'
    split at hg'
    · next hid =>
      cases hg'
      exact hid ▸ ho hi
    · exact hx.owns hg' hi
  behaves hg' := by
    rw [Crowd.turn, Dict.get?_insert] at hg'
    split at hg'
    · cases hg'
      exact hb
    · next hid => exact (hx.behaves hg').others (hothers hid hg')
  live := hlive

/-- A pass can be dropped with its handle. -/
theorem Orderly.drop (hx : x.Orderly name count bound) (id : String) :
    (x.drop id).Orderly name count bound := by
  have hget {id' g'} (h : (x.passes.erase id).get? id' = some g') :
      id' ≠ id ∧ x.passes.get? id' = some g' := by
    rw [Dict.get?_erase] at h
    split at h
    · cases h
    · next hne => exact ⟨hne, h⟩
  exact {
    locks := Locks.sound_release hx.locks id
    owns := fun hg hi => (hx.owns (hget hg).2 hi).release (hget hg).1
    behaves := fun hg => hx.behaves (hget hg).2
    live := hx.live }

/-! ## Steps and runs -/

/-- A pass takes a step that has nothing to do with locks. -/
theorem Orderly.act {t : PoolStep} {next : t.Answer → _} {i : Bool} {a : t.Answer}
    (hx : x.Orderly name count bound) (hbound : count.toInt ≤ bound)
    (hg : x.passes.get? id = some ⟨.call t next, i⟩) (ht : t.free)
    (ha : t.Answers (x.site.under i) a w) :
    ({ x with site := w }.turn id ⟨next a, i⟩ : Crowd).Orderly name count bound := by
  have hbehaves := hx.behaves hg
  have hpermit : t.Proper false name count (x.site.under i) := hbehaves.permitted
  have hinside : w.under i = w := by
    have : w.inside = i := ha.inside ht
    rw [PoolSite.under, ← this]
  have hlive := hx.live
  have hnext : Behaves name count ⟨next a, i⟩ w := by
    rw [Behaves, hinside]
    exact hbehaves.answered ha
  rcases ha.live_le with hle | ⟨⟨j, rfl⟩, hle⟩
  · have hle : w.live ≤ x.site.live := hle
    exact hx.turn hnext (fun hi => hx.owns hg hi) (by omega) fun _ _ _ => hle
  · have hle : w.live ≤ x.site.live + 1 := hle
    obtain ⟨hi, hroom, -⟩ := hpermit
    have hi : i = true := hi
    have hroom : (x.site.live : Int) < count.toInt := hroom
    refine hx.turn hnext (fun hi => hx.owns hg hi) (by omega) fun hne hg' hi' => ?_
    exact absurd (hx.one_inside hg' hg hi' hi) hne

theorem Orderly.step (hx : x.Orderly name count bound) (hcount : 0 ≤ count.toInt)
    (hbound : count.toInt ≤ bound) (hs : Step name count x y) : y.Orderly name count bound := by
  cases hs with
  | begin _ _ hname hpcount hphase =>
    subst hname hpcount
    exact hx.turn (Pool.pass_safe hcount nofun) nofun hx.live
      fun _ _ _ => Nat.le_refl _
  | ask hg hid =>
    exact hx.relock (Locks.sound_acquire hx.locks hid _) fun _ _ ho => ho.acquire _
  | notice => exact hx.relock (Locks.sound_poll hx.locks _) fun _ _ ho => ho.poll
  | @enter n next i h hh hstage hpool hg =>
    have hsafe := hx.behaves hg
    have hname : n = name := hsafe.permitted
    have hnext : Behaves name count ⟨next (), true⟩ x.site := hsafe.answered rfl
    exact hx.turn hnext (fun _ => ⟨h, hh, rfl, hpool.trans hname, hstage⟩) hx.live
      fun _ _ _ => Nat.le_refl _
  | @unlock id n next i hg =>
    have hnext : Behaves name count ⟨next (), false⟩ x.site := (hx.behaves hg).answered rfl
    have hturn : (x.turn id ⟨next (), false⟩).Orderly name count bound :=
      hx.turn hnext nofun hx.live fun _ _ _ => Nat.le_refl _
    refine hturn.relock (Locks.sound_release hx.locks id) fun hg' hi ho => ho.release ?_
    rintro rfl
    rw [Crowd.turn, Dict.get?_insert, if_pos rfl] at hg'
    cases hg'
    cases hi
  | call hg ht ha => exact hx.act hbound hg ht ha
  | drop => exact hx.drop _
  | foreign _ hid =>
    exact hx.relock (Locks.sound_acquire hx.locks hid _) fun _ _ ho => ho.acquire _
  | leave hlive => exact hx.resite hlive
  | edit => exact hx.resite (Nat.le_refl _)

theorem Orderly.run (hx : x.Orderly name count bound) (hcount : 0 ≤ count.toInt)
    (hbound : count.toInt ≤ bound) (hr : Reaches name count x y) : y.Orderly name count bound := by
  induction hr with
  | refl => exact hx
  | tail _ hs ih => exact ih.step hcount hbound hs

end Crowd

/-- Any number of passes that are to create the members of one pool are made at the same time, each
with its own copy of the pool that agrees on the wanted count; their steps interleave in any order,
calls may fail with or without having taken effect, and passes may be dropped anywhere: the members
that are not being deleted never exceed the wanted count, or what they were at the start. -/
theorem Pool.growth_bounded {name : String} {count : Int32} (hcount : 0 ≤ count) {w : PoolSite}
    {y : Crowd} (hr : Crowd.Reaches name count ⟨w, {}, ∅⟩ y) :
    (y.site.live : Int) ≤ max (w.live : Int) count.toInt := by
  have hstart : Crowd.Orderly name count (max (w.live : Int) count.toInt) ⟨w, {}, ∅⟩ := {
    locks := Locks.sound_empty
    owns := nofun
    behaves := nofun
    live := Int.le_max_left _ _ }
  exact (hstart.run (Int32.le_iff_toInt_le.1 hcount) (Int.le_max_right _ _) hr).live

/-! ## Passes that take turns -/

namespace Crowd

/-- Lets a pass take its next step, which a cluster answers that does what it is asked. -/
def advance (x : Crowd) (id : String) : Crowd :=
  match x.passes.get? id with
  | none | some ⟨.done _, _⟩ => x
  | some ⟨.call t next, i⟩ =>
    if t.free then
      let r := serve t (x.site.under i)
      { x with site := r.2 }.turn id ⟨next r.1, i⟩
    else match t, next with
      | .lock n, next =>
        match x.locks.handles.find? (·.id = id) with
        | none => { x with locks := x.locks.acquire id n }
        | some h =>
          if h.stage = .held ∧ h.pool = n then x.turn id ⟨next (), true⟩
          else { x with locks := x.locks.poll id }
      | .unlock _, next => { x with locks := x.locks.release id }.turn id ⟨next (), false⟩
      | _, _ => x

variable {name : String} {count : Int32}

theorem reaches_advance (x : Crowd) (id : String) : Reaches name count x (x.advance id) := by
  unfold advance
  split
  · exact .refl
  · exact .refl
  next t next i hg =>
  split
  · next ht => exact .single (.call hg ht (answers_serve t _))
  split
  · split
    · next hfind =>
      refine .single (.ask hg fun h hh => ?_)
      simpa using List.find?_eq_none.1 hfind h hh
    · next h hfind =>
      obtain rfl : h.id = id := by simpa using List.find?_some hfind
      split
      · next hheld => exact .single (.enter (List.mem_of_find?_eq_some hfind) hheld.1 hheld.2 hg)
      · exact .single .notice
  · exact .single (.unlock hg)
  · exact .refl

/-- Lets passes take steps in the given order. -/
def schedule (x : Crowd) (ids : List String) : Crowd := ids.foldl advance x

theorem reaches_schedule (x : Crowd) (ids : List String) :
    Reaches name count x (x.schedule ids) := by
  induction ids generalizing x with
  | nil => exact .refl
  | cons id ids ih => exact (reaches_advance x id).trans (ih _)

end Crowd

/-- A pool that wants one member, with a number of missing ones on record. -/
def Pool.wanting (needed : Int32) : Pool where
  metadata := { name := some "edge", uid := some "1" }
  spec := { count := 1, plan := "c3.small" }
  status := some { phase := .tokenReady, needed := needed, token := some "join" }

/-- Two passes over a pool without members, which disagree on how many are missing. -/
def Crowd.pair : Crowd :=
  (turn ⟨{ object := Pool.wanting 1 }, {}, ∅⟩ "a" ⟨(Pool.wanting 5).pass .standard ∅, false⟩).turn "b"
    ⟨(Pool.wanting 1).pass .standard ∅, false⟩

/-- Both passes are made to their ends. -/
def Crowd.pairDone : Crowd :=
  pair.schedule (["a", "b"] ++ List.replicate 14 "a" ++ List.replicate 14 "b")

/-- Two passes that ask for the lock at once create one member. -/
theorem Pool.growth_bounded_pair :
    Crowd.Reaches "edge" 1 ⟨{ object := Pool.wanting 1 }, {}, ∅⟩ Crowd.pairDone ∧
    Crowd.pairDone.locks.size = 0 ∧ Crowd.pairDone.site.live = 1 ∧
    (Crowd.pairDone.site.live : Int) ≤ 1 := by
  have hbegin : Crowd.Reaches "edge" 1 ⟨{ object := Pool.wanting 1 }, {}, ∅⟩ Crowd.pair :=
    (ReflTransGen.single (.begin rfl (by decide) rfl rfl rfl)).tail
      (.begin rfl (by decide) rfl rfl rfl)
  have hdone : Crowd.Reaches "edge" 1 ⟨{ object := Pool.wanting 1 }, {}, ∅⟩ Crowd.pairDone :=
    hbegin.trans (Crowd.reaches_schedule _ _)
  exact ⟨hdone, by with_unfolding_all rfl, by with_unfolding_all rfl,
    Pool.growth_bounded (by decide) hdone⟩

end BareMetal
