import BareMetal.Proofs.Pool.Wakes

/-!
# Histories of the index

Events are recorded in the index, with or without an Instance that is about to vanish being dropped, and names
are forgotten. Of each name the history of the calls about it alone tells what is remembered
(`PoolIndex.get?_afterCalls`) and which of its events wake a pool (`PoolIndex.wakes_exactly`).
-/

namespace BareMetal

theorem Instance.membership?_eq_some_iff {i : Instance} {m : Membership} : i.membership? = some m ↔
    i.owningPool? = some m.pool ∧ i.phase = m.phase ∧ i.isDeleting = m.deleting := by
  unfold membership?
  rw [Option.map_eq_some_iff]
  constructor
  · rintro ⟨pool, hpool, rfl⟩
    exact ⟨hpool, rfl, rfl⟩
  · rintro ⟨hpool, hphase, hdeleting⟩
    exact ⟨m.pool, hpool, by rw [hphase, hdeleting]⟩

namespace PoolIndex

/-- What is done with the index. -/
inductive Call
  | wake (i : Instance)
  | observe (i : Instance)
  | forget (name : String)

namespace Call

/-- The name it is about. -/
def name : Call → String
  | wake i | observe i => i.name
  | forget name => name

/-- The Instance that an event shows. -/
def event? : Call → Option Instance
  | wake i | observe i => some i
  | forget _ => none

/-- Nothing is remembered of the name afterwards: it is forgotten, the event shows no pool, or it shows an
Instance that is about to vanish and is dropped. -/
def Drops : Call → Prop
  | wake i => i.owningPool? = none ∨ i.vanishes
  | observe i => i.owningPool? = none
  | forget _ => True

/-- What is remembered of the name afterwards. -/
def remembered? : Call → Option Membership
  | wake i => i.remembered?
  | observe i => i.membership?
  | forget _ => none

end Call

/-- What is answered to a call, and the index after it. -/
def answer (x : PoolIndex) : Call → Option String × PoolIndex
  | .wake i => x.wake i
  | .observe i => x.observe i
  | .forget name => x.forget name

/-- What is answered to those calls that are about a name, when all are made in order. -/
def answers (x : PoolIndex) (name : String) : List Call → List (Option String)
  | [] => []
  | c :: calls =>
    let rest := answers (x.answer c).2 name calls
    if c.name = name then (x.answer c).1 :: rest else rest

/-- The index remembers the name as a managed member of the pool. -/
def Counts (x : PoolIndex) (name pool : String) : Prop :=
  ∃ last, x.get? name = some last ∧ last.pool = pool ∧ last.phase = .managed

/-- The index after a history of calls. -/
def afterCalls (calls : List Call) : PoolIndex := calls.foldl (fun x c => (x.answer c).2) ∅

/-- The last call about a name. -/
def lastCall? (calls : List Call) (name : String) : Option Call := calls.reverse.find? (·.name = name)

/-- What the last event of a name showed. -/
def lastEvent? (calls : List Call) (name : String) : Option Instance := latest? (calls.filterMap (·.event?)) name

/-- The name had an event, and the last call about it did not drop it. -/
def Remembers (calls : List Call) (name : String) : Prop :=
  (∃ i, lastEvent? calls name = some i) ∧ ∀ c, lastCall? calls name = some c → ¬c.Drops

/-- The name is remembered, and its last event showed a managed Instance of the pool. -/
def SeenManaged (calls : List Call) (name pool : String) : Prop :=
  Remembers calls name ∧ ∃ i, lastEvent? calls name = some i ∧ i.phase = .managed ∧ i.owningPool? = some pool

/-- Every call about the name is an event that shows a managed member of the pool. -/
def StaysManaged (calls : List Call) (name pool : String) : Prop :=
  ∀ c ∈ calls, c.name = name → ∃ i, c.event? = some i ∧ i.ManagedIn pool

variable {x : PoolIndex} {c : Call} {i : Instance} {m : Membership} {p name : String} {calls run : List Call}

/-! ## One call -/

namespace Call

theorem name_of_event (h : c.event? = some i) : i.name = c.name := by
  cases c with
  | wake | observe =>
    cases h
    rfl
  | forget => cases h

/-- What is remembered is what the event showed. -/
theorem remembered?_eq_some_iff :
    c.remembered? = some m ↔ ¬c.Drops ∧ ∃ i, c.event? = some i ∧ i.membership? = some m := by
  have hpool {i : Instance} (h : i.membership? = some m) : i.owningPool? ≠ none := by
    rw [(Instance.membership?_eq_some_iff.1 h).1]
    nofun
  cases c with
  | wake i =>
    simp only [remembered?, Instance.remembered?, Drops, event?, not_or, Option.some.injEq, exists_eq_left',
      Option.ite_none_left_eq_some]
    exact ⟨fun h => ⟨⟨hpool h.2, h.1⟩, h.2⟩, fun h => ⟨h.1.2, h.2⟩⟩
  | observe i =>
    simp only [remembered?, Drops, event?, Option.some.injEq, exists_eq_left']
    exact ⟨fun h => ⟨hpool h, h⟩, fun h => h.2⟩
  | forget => simp [remembered?, Drops]

theorem exists_membership? (h : ¬c.Drops) : ∃ i, c.event? = some i ∧ ∃ m, i.membership? = some m := by
  have hshown {i : Instance} (h : i.owningPool? ≠ none) : ∃ m, i.membership? = some m := by
    obtain ⟨pool, hpool⟩ := Option.ne_none_iff_exists'.1 h
    exact ⟨⟨pool, i.phase, i.isDeleting⟩, Instance.membership?_eq_some_iff.2 ⟨hpool, rfl, rfl⟩⟩
  cases c with
  | wake i => exact ⟨i, rfl, hshown (not_or.1 h).1⟩
  | observe i => exact ⟨i, rfl, hshown h⟩
  | forget => exact absurd trivial h

end Call

theorem get?_answer (x : PoolIndex) (c : Call) (name : String) :
    (x.answer c).2.get? name = if name = c.name then c.remembered? else x.get? name := by
  cases c with
  | wake i => exact get?_wake x i name
  | observe i => exact get?_observe x i name
  | forget n => exact Dict.get?_erase x n name

theorem answer_eq_some_iff (hi : c.event? = some i) : (x.answer c).1 = some p ↔ i.owningPool? = some p ∧
    (i.isDeleting = true ∨ i.phase = .managed ∧ ¬x.Counts i.name p) := by
  cases c with
  | wake =>
    cases hi
    exact wake_eq_some_iff
  | observe =>
    cases hi
    exact observe_eq_some_iff
  | forget => cases hi

/-! ## Managed members that stay -/

theorem counts_answer_of_ne (hc : c.name ≠ name) : (x.answer c).2.Counts name p ↔ x.Counts name p := by
  unfold Counts
  rw [get?_answer, if_neg hc.symm]

/-- After an event of a managed member that stays, the index remembers it. -/
theorem counts_answer (hc : c.name = name) (hi : c.event? = some i) (hm : i.ManagedIn p) :
    (x.answer c).2.Counts name p := by
  have hstays : ¬c.Drops := by
    cases c with
    | wake =>
      cases hi
      simp [Call.Drops, hm.pool, Instance.vanishes, hm.stays]
    | observe =>
      cases hi
      simp [Call.Drops, hm.pool]
    | forget => cases hi
  have hshown : i.membership? = some ⟨p, .managed, false⟩ :=
    Instance.membership?_eq_some_iff.2 ⟨hm.pool, hm.phase, hm.stays⟩
  refine ⟨⟨p, .managed, false⟩, ?_, rfl, rfl⟩
  rw [get?_answer, if_pos hc.symm]
  exact Call.remembered?_eq_some_iff.2 ⟨hstays, i, hi, hshown⟩

/-- An event of a managed member that stays wakes its pool unless the index remembers it as one. -/
theorem answer_of_managed (hi : c.event? = some i) (hm : i.ManagedIn p) :
    (x.Counts c.name p → (x.answer c).1 = none) ∧ (¬x.Counts c.name p → (x.answer c).1 = some p) := by
  have hwakes {q : String} : (x.answer c).1 = some q ↔ p = q ∧ ¬x.Counts c.name q := by
    rw [answer_eq_some_iff hi, Call.name_of_event hi]
    simp [hm.pool, hm.phase, hm.stays]
  refine ⟨fun hcounts => Option.eq_none_iff_forall_ne_some.2 fun q hq => ?_, fun hnot => hwakes.2 ⟨rfl, hnot⟩⟩
  obtain ⟨rfl, hnot⟩ := hwakes.1 hq
  exact hnot hcounts

/-- While a member that is remembered stays managed, nobody is woken. -/
theorem answers_of_counts (hx : x.Counts name p) (hrun : StaysManaged run name p) :
    ∃ k, answers x name run = List.replicate k none := by
  -- calls about others do not touch what is remembered of the name, and its own events show the same again
  induction run generalizing x with
  | nil => exact ⟨0, rfl⟩
  | cons c run ih =>
    have hrest : StaysManaged run name p := fun d hd => hrun d (List.mem_cons_of_mem c hd)
    unfold answers
    by_cases hc : c.name = name
    · obtain ⟨i, hi, hm⟩ := hrun c List.mem_cons_self hc
      obtain ⟨k, hk⟩ := ih (counts_answer hc hi hm) hrest
      refine ⟨k + 1, ?_⟩
      rw [if_pos hc, hk, (answer_of_managed hi hm).1 (hc ▸ hx)]
      rfl
    · rw [if_neg hc]
      exact ih ((counts_answer_of_ne hc).2 hx) hrest

/-- The first event of a member that was not remembered as managed wakes the pool, and no later one does as long
as it stays managed. -/
theorem answers_of_not_counts (hx : ¬x.Counts name p) (hrun : StaysManaged run name p)
    (hsome : ∃ c ∈ run, c.name = name) : ∃ k, answers x name run = some p :: List.replicate k none := by
  induction run generalizing x with
  | nil => simp at hsome
  | cons c run ih =>
    have hrest : StaysManaged run name p := fun d hd => hrun d (List.mem_cons_of_mem c hd)
    unfold answers
    by_cases hc : c.name = name
    · obtain ⟨i, hi, hm⟩ := hrun c List.mem_cons_self hc
      obtain ⟨k, hk⟩ := answers_of_counts (counts_answer hc hi hm) hrest
      refine ⟨k, ?_⟩
      rw [if_pos hc, hk, (answer_of_managed hi hm).2 (hc ▸ hx)]
    · rw [if_neg hc]
      refine ih (mt (counts_answer_of_ne hc).1 hx) hrest ?_
      simpa [hc] using hsome

/-! ## Histories -/

theorem afterCalls_concat (calls : List Call) (c : Call) :
    afterCalls (calls ++ [c]) = ((afterCalls calls).answer c).2 := by
  simp [afterCalls]

theorem lastCall?_concat (calls : List Call) (c : Call) (name : String) :
    lastCall? (calls ++ [c]) name = if name = c.name then some c else lastCall? calls name := by
  unfold lastCall?
  rw [List.reverse_concat, List.find?_cons]
  by_cases h : c.name = name
  · simp [h]
  · simp [h, Ne.symm h]

/-- What is remembered of a name comes from the last call about it. -/
theorem get?_afterCalls (calls : List Call) (name : String) :
    (afterCalls calls).get? name = (lastCall? calls name).bind (·.remembered?) := by
  induction calls using List.reverseRecOn with
  | nil => rfl
  | append_singleton calls c ih =>
    rw [afterCalls_concat, get?_answer, lastCall?_concat, ih]
    split <;> rfl

theorem exists_lastCall? (h : lastEvent? calls name = some i) : ∃ c, lastCall? calls name = some c := by
  have hname : i.name = name := by simpa using List.find?_some h
  obtain ⟨c, hc, hi⟩ := List.mem_filterMap.1 (List.mem_reverse.1 (List.mem_of_find?_eq_some h))
  refine Option.isSome_iff_exists.1 (List.find?_isSome.2 ⟨c, List.mem_reverse.2 hc, ?_⟩)
  simp [← Call.name_of_event hi, hname]

/-- If the last call about a name was an event, it was the last event of the name. -/
theorem lastEvent?_of_lastCall? (h : lastCall? calls name = some c) (hi : c.event? = some i) :
    lastEvent? calls name = some i := by
  induction calls using List.reverseRecOn with
  | nil => cases h
  | append_singleton calls d ih =>
    unfold lastEvent? at ih ⊢
    rw [lastCall?_concat] at h
    rw [List.filterMap_append]
    split at h
    · next hname =>
      obtain rfl := Option.some.inj h
      rw [List.filterMap_cons_some hi, List.filterMap_nil, latest?_concat, Call.name_of_event hi, if_pos hname]
    · next hname =>
      cases hd : d.event? with
      | none =>
        rw [List.filterMap_cons_none hd, List.filterMap_nil, List.append_nil]
        exact ih h
      | some j =>
        rw [List.filterMap_cons_some hd, List.filterMap_nil, latest?_concat, Call.name_of_event hd, if_neg hname]
        exact ih h

/-- What is remembered is what the last event showed. -/
theorem get?_afterCalls_eq_some_iff : (afterCalls calls).get? name = some m ↔
    Remembers calls name ∧ ∃ i, lastEvent? calls name = some i ∧ i.membership? = some m := by
  rw [get?_afterCalls, Option.bind_eq_some_iff]
  constructor
  · rintro ⟨c, hc, hm⟩
    obtain ⟨hkept, i, hi, hshown⟩ := Call.remembered?_eq_some_iff.1 hm
    have hlast := lastEvent?_of_lastCall? hc hi
    refine ⟨⟨⟨i, hlast⟩, fun d hd => ?_⟩, i, hlast, hshown⟩
    obtain rfl := Option.some.inj (hc.symm.trans hd)
    exact hkept
  · rintro ⟨⟨-, hkept⟩, i, hlast, hshown⟩
    obtain ⟨c, hc⟩ := exists_lastCall? hlast
    obtain ⟨j, hj, -⟩ := Call.exists_membership? (hkept c hc)
    obtain rfl := Option.some.inj (hlast.symm.trans (lastEvent?_of_lastCall? hc hj))
    exact ⟨c, hc, Call.remembered?_eq_some_iff.2 ⟨hkept c hc, i, hj, hshown⟩⟩

/-- A name that is remembered is so with the pool of its last event. -/
theorem Remembers.exists_get? (h : Remembers calls name) : ∃ i m, lastEvent? calls name = some i ∧
    i.owningPool? = some m.pool ∧ (afterCalls calls).get? name = some m := by
  obtain ⟨⟨i, hlast⟩, hkept⟩ := id h
  obtain ⟨c, hc⟩ := exists_lastCall? hlast
  obtain ⟨j, hj, m, hshown⟩ := Call.exists_membership? (hkept c hc)
  have hevent := lastEvent?_of_lastCall? hc hj
  exact ⟨j, m, hevent, (Instance.membership?_eq_some_iff.1 hshown).1,
    get?_afterCalls_eq_some_iff.2 ⟨h, j, hevent, hshown⟩⟩

theorem isSome_get?_afterCalls : ((afterCalls calls).get? name).isSome ↔ Remembers calls name := by
  rw [Option.isSome_iff_exists]
  constructor
  · rintro ⟨m, hm⟩
    exact (get?_afterCalls_eq_some_iff.1 hm).1
  · intro h
    obtain ⟨-, m, -, -, hm⟩ := h.exists_get?
    exact ⟨m, hm⟩

theorem counts_afterCalls : (afterCalls calls).Counts name p ↔ SeenManaged calls name p := by
  unfold Counts SeenManaged
  simp only [get?_afterCalls_eq_some_iff, Instance.membership?_eq_some_iff]
  constructor
  · rintro ⟨m, ⟨hkept, i, hlast, hpool, hphase, -⟩, rfl, hmanaged⟩
    exact ⟨hkept, i, hlast, hphase.trans hmanaged, hpool⟩
  · rintro ⟨hkept, i, hlast, hphase, hpool⟩
    exact ⟨⟨p, .managed, i.isDeleting⟩, ⟨hkept, i, hlast, hpool, hphase, rfl⟩, rfl, rfl⟩

/-- After any history of calls: an event wakes a pool exactly if the Instance is owned by it and is being deleted,
or is managed and was not seen so last in the pool; a name is remembered exactly if it had an event and the last
call about it did not drop it, and forgetting it then gives the pool of its last event; and while events of a name
show a managed member of a pool, whatever happens to others, the first of them wakes the pool and no other does,
unless the name was remembered as one already. -/
theorem wakes_exactly (calls : List Call) :
    (∀ c i p, c.event? = some i → (((afterCalls calls).answer c).1 = some p ↔ i.owningPool? = some p ∧
      (i.isDeleting = true ∨ i.phase = .managed ∧ ¬SeenManaged calls i.name p))) ∧
    (∀ name, ((afterCalls calls).get? name).isSome ↔ Remembers calls name) ∧
    (∀ name, (Remembers calls name → ∃ i p, lastEvent? calls name = some i ∧ i.owningPool? = some p ∧
        ((afterCalls calls).forget name).1 = some p) ∧
      (¬Remembers calls name → ((afterCalls calls).forget name).1 = none)) ∧
    (∀ name p run, StaysManaged run name p → (∃ c ∈ run, c.name = name) → ¬SeenManaged calls name p →
      ∃ k, answers (afterCalls calls) name run = some p :: List.replicate k none) := by
  refine ⟨fun c i p hi => ?_, fun name => isSome_get?_afterCalls, fun name => ⟨fun h => ?_, fun h => ?_⟩,
    fun name p run hrun hsome hnot => ?_⟩
  · rw [answer_eq_some_iff hi, counts_afterCalls]
  · obtain ⟨i, m, hlast, hpool, hget⟩ := h.exists_get?
    exact ⟨i, m.pool, hlast, hpool, by rw [forget, hget]; rfl⟩
  · have hnone : (afterCalls calls).get? name = none := by
      rwa [← Option.not_isSome_iff_eq_none, isSome_get?_afterCalls]
    rw [forget, hnone]
    rfl
  · exact answers_of_not_counts (mt counts_afterCalls.1 hnot) hrun hsome

/-- An Instance of the pool `edge` becomes managed while something happens to another one. -/
theorem wakes_exactly_joining :
    let others : Instance := { metadata := { name := some "edge-b" } }
    let before : List Call := [.forget "edge-a", .observe (sighting (some "edge") .ready false)]
    let run : List Call := [.wake others, .wake (sighting (some "edge") .managed false), .forget "edge-b",
      .observe (sighting (some "edge") .managed false), .wake (sighting (some "edge") .managed false)]
    StaysManaged run "edge-a" "edge" ∧ ¬SeenManaged before "edge-a" "edge" ∧
      ∃ k, answers (afterCalls before) "edge-a" run = some "edge" :: List.replicate k none := by
  intro others before run
  have hmanaged : (sighting (some "edge") .managed false).ManagedIn "edge" := ⟨by decide, rfl, rfl⟩
  have hrun : StaysManaged run "edge-a" "edge" := by
    simp only [StaysManaged, run, List.forall_mem_cons, Call.name, Call.event?]
    exact ⟨fun h => absurd h (by decide), fun _ => ⟨_, rfl, hmanaged⟩, fun h => absurd h (by decide),
      fun _ => ⟨_, rfl, hmanaged⟩, fun _ => ⟨_, rfl, hmanaged⟩, by simp⟩
  have hnot : ¬SeenManaged before "edge-a" "edge" := by
    rintro ⟨-, i, hlast, hphase, -⟩
    obtain rfl : sighting (some "edge") .ready false = i := Option.some.inj hlast
    cases hphase
  exact ⟨hrun, hnot, (wakes_exactly before).2.2.2 _ _ _ hrun
    ⟨_, List.mem_cons_of_mem _ List.mem_cons_self, rfl⟩ hnot⟩

end PoolIndex

end BareMetal
