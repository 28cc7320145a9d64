import BareMetal.Proofs.Pool.Outcome

/-!
# Convergence

In helpful surroundings a pool comes to rest from any status in at most five rounds, since every
round lowers `PoolScene.distance`; and at rest a pass only looks (`Pool.converges`).
-/

namespace BareMetal

open PoolPass

namespace PoolScene

variable {p : Pool} {e : Surroundings p} {w : PoolScene}

/-! ## The way to rest -/

/-- The number of Instances that are missing in fact. -/
def gap (w : PoolScene) : Int := w.object.spec.count.toInt - w.members.length

/-- A bound on the number of rounds that a pool needs to come to rest. -/
def distance (w : PoolScene) : Nat :=
  let s := w.object.statusOrNew
  match w.object.phase with
  | .empty => 5
  -- a record that fits the members leads to the wanted number at once, any other one only to a look
  | .tokenReady => if 0 ≤ w.gap ∧ w.gap ≤ s.needed.toInt then 2 else 4
  | .cleanupNodes =>
    if w.gap < 0 ∧ s.needed.toInt = w.gap ∧ s.requested.toInt = w.members.length then 2 else 4
  | .submitted | .ready => if w.gap ≠ 0 then 3 else if s.requested = w.object.spec.count then 1 else 2

/-- The pool is at rest: it has exactly the wanted members, all have joined, and this is on record. -/
structure Settled (w : PoolScene) : Prop where
  phase : w.object.phase = .ready
  ready : w.object.statusOrNew.ready = w.object.spec.count
  requested : w.object.statusOrNew.requested = w.object.spec.count
  needed : w.object.statusOrNew.needed = 0
  members : (w.members.length : Int) = w.object.spec.count.toInt

theorem distance_le (w : PoolScene) : w.distance ≤ 5 := by
  unfold distance
  split <;> grind

theorem distance_pos (w : PoolScene) : 0 < w.distance := by
  unfold distance
  split <;> grind

section Fields

variable (st : PoolStatus)

@[simp] theorem report_phase : (w.report st).object.phase = st.phase := rfl

@[simp] theorem report_needed : (w.report st).object.statusOrNew.needed = st.needed := rfl

@[simp] theorem report_requested : (w.report st).object.statusOrNew.requested = st.requested := rfl

@[simp] theorem report_spec : (w.report st).object.spec = w.object.spec := rfl

@[simp] theorem report_members : (w.report st).members = w.members := rfl

end Fields

theorem distance_join : (w.join e).distance = w.distance := by
  have hlen : (w.join e).members.length = w.members.length := List.length_map e.joined
  unfold distance gap
  rw [hlen]
  rfl

/-! ## One pass -/

theorem prepared_nearer (hphase : w.object.phase = .empty)
    (token : Option String) :
    (w.report ⟨.tokenReady, 0, p.spec.count, p.spec.count, token⟩).distance < w.distance := by
  simp only [distance, hphase, gap, report_phase, report_needed, report_spec, report_members]
  grind

theorem distance_report_submitted {members : List Instance} {st : PoolStatus} (hst : st.phase = .submitted) :
    ((w.populate members).report st).distance =
      if w.object.spec.count.toInt - members.length ≠ 0 then 3
      else if st.requested = w.object.spec.count then 1 else 2 := by
  unfold distance
  rw [report_phase, hst]
  rfl

theorem submitted_nearer (hp : p.Viable) (hw : w.Tidy p) (hphase : w.object.phase = .tokenReady)
    {members : List Instance} (hlen : members.length = w.members.length + w.missing)
    {st : PoolStatus} (hst : st.phase = .submitted) (hrequested : st.requested = p.spec.count) :
    ((w.populate members).report st).distance < w.distance := by
  have hmissing := hw.missing_eq hp
  rw [distance_report_submitted hst, hrequested, hw.spec, if_pos rfl, hlen]
  simp only [distance, hphase, gap, hw.spec]
  grind

theorem shrunk_nearer (hp : p.Viable) (hw : w.Tidy p) (hphase : w.object.phase = .cleanupNodes)
    {members : List Instance} (hsub : members.Sublist w.members) (hlen : members.length =
      w.members.length - (max (-w.object.statusOrNew.needed) 0).toNatClampNeg) :
    ((w.populate members).report
      (w.object.statusOrNew.afterRemovals (.ofNat (w.members.length - members.length)))).distance <
      w.distance := by
  have hfew := hw.few
  have hcount : 0 ≤ w.object.spec.count.toInt := hw.spec ▸ hp.count_nonneg
  have hle := hsub.length_le
  by_cases hcounted : w.gap < 0 ∧ w.object.statusOrNew.needed.toInt = w.gap ∧
      w.object.statusOrNew.requested.toInt = w.members.length
  · obtain ⟨hneg, hneeded, hrequested⟩ := hcounted
    have hgap : w.gap = w.object.spec.count.toInt - w.members.length := rfl
    -- the surplus was counted, so exactly the wanted members are left
    rw [Fleet.toNatClampNeg_removable (by omega), hneeded] at hlen
    have hleft : (members.length : Int) = w.object.spec.count.toInt := by omega
    have hrecord : (w.object.statusOrNew.afterRemovals
        (.ofNat (w.members.length - members.length))).requested = w.object.spec.count := by
      refine Int32.toInt_inj.1 ?_
      rw [PoolStatus.toInt_requested_afterRemovals (by omega) (by omega), hrequested]
      omega
    rw [distance_report_submitted rfl, if_neg (by omega), if_pos hrecord]
    simp only [distance, hphase]
    grind
  · rw [distance_report_submitted rfl]
    simp only [distance, hphase, if_neg hcounted]
    grind

/-- What is seen of a fleet of the wanted size that is on record. -/
theorem seen_of_requested (hw : w.Tidy p) (hjoined : w.Joined) (hgap : w.gap = 0)
    (hrequested : w.object.statusOrNew.requested = w.object.spec.count) : w.seen =
      { w.object.statusOrNew with phase := .ready, ready := w.object.spec.count, needed := 0 } := by
  have hpresent : w.fleet.present = w.object.spec.count := by
    refine Int32.toInt_inj.1 ?_
    have := hw.toInt_present
    unfold gap at hgap
    omega
  have hready : w.fleet.ready = w.object.spec.count := hjoined.ready_eq.trans hpresent
  unfold seen PoolStatus.settle
  simp [hrequested, hready, hpresent]

/-- What is seen of any other fleet. -/
theorem seen_of_gap (hp : p.Viable) (hw : w.Tidy p)
    (hnot : ¬(w.gap = 0 ∧ w.object.statusOrNew.requested = w.object.spec.count)) :
    w.seen.needed.toInt = w.gap ∧
      w.seen.requested.toInt = (if w.gap < 0 then (w.members.length : Int) else w.object.spec.count.toInt) ∧
      w.seen.phase = if 0 < w.gap then .tokenReady else if w.gap < 0 then .cleanupNodes else .submitted := by
  have hpresent := hw.toInt_present
  have hgap : (w.object.spec.count - w.fleet.present).toInt = w.gap := by
    rw [Fleet.toInt_gap (hw.spec ▸ hp.count_nonneg) (by omega), hpresent]
    rfl
  have hneg : w.object.spec.count - w.fleet.present < 0 ↔ w.gap < 0 := by
    rw [Int32.lt_iff_toInt_lt, hgap]
    rfl
  have hpos : 0 < w.object.spec.count - w.fleet.present ↔ 0 < w.gap := by
    rw [Int32.lt_iff_toInt_lt, hgap]
    rfl
  have hcond : ¬(w.object.statusOrNew.requested = w.object.spec.count &&
      w.fleet.ready = w.object.spec.count && w.fleet.present = w.object.spec.count) = true := by
    simp only [Bool.and_eq_true, decide_eq_true_eq]
    rintro ⟨⟨hrequested, -⟩, hcount⟩
    refine hnot ⟨?_, hrequested⟩
    rw [gap, ← hcount, hpresent]
    omega
  unfold seen PoolStatus.settle
  rw [if_neg hcond]
  refine ⟨hgap, ?_, ?_⟩
  · simp only [hneg]
    split
    · exact hpresent
    · rfl
  · simp only [gt_iff_lt, hneg, hpos]

theorem observed_nearer (hp : p.Viable) (hw : w.Tidy p) (hjoined : w.Joined)
    (hphase : w.object.phase = .submitted ∨ w.object.phase = .ready) :
    (w.report w.seen).Settled ∨ (w.report w.seen).distance < w.distance := by
  have hdistance : w.distance = if w.gap ≠ 0 then 3 else
      if w.object.statusOrNew.requested = w.object.spec.count then 1 else 2 := by
    rcases hphase with h | h <;> simp only [distance, h]
  by_cases hrest : w.gap = 0 ∧ w.object.statusOrNew.requested = w.object.spec.count
  · have hseen := seen_of_requested hw hjoined hrest.1 hrest.2
    rw [hseen]
    have hmembers : (w.members.length : Int) = w.object.spec.count.toInt := by
      have := hrest.1
      unfold gap at this
      omega
    exact .inl ⟨rfl, rfl, hrest.2, rfl, hmembers⟩
  · -- the look finds members missing, members too many, or only the record behind
    obtain ⟨hneeded, hrequested, hnext⟩ := seen_of_gap hp hw hrest
    refine .inr ?_
    have hgap : (w.report w.seen).gap = w.gap := rfl
    rw [hdistance]
    by_cases hpos : 0 < w.gap
    · rw [if_pos hpos] at hnext
      simp only [distance, report_phase, hnext, report_needed, hgap, hneeded]
      grind
    · by_cases hneg : w.gap < 0
      · rw [if_neg hpos, if_pos hneg] at hnext
        rw [if_pos hneg] at hrequested
        simp only [distance, report_phase, hnext, report_needed, report_requested, report_members, hgap,
          hneeded, hrequested]
        grind
      · rw [if_neg hpos, if_neg hneg] at hnext
        rw [if_neg hneg] at hrequested
        have hrequested : w.seen.requested = w.object.spec.count := Int32.toInt_inj.1 hrequested
        simp only [distance, report_phase, hnext, report_requested, report_spec, hgap, hrequested]
        grind

/-! ## Rounds -/

theorem Pool.phase_ne_empty {q : Pool} (h : q.phase ≠ .empty) : q.status ≠ none := by
  intro hnone
  simp [Pool.phase, hnone] at h

/-- Every round leaves the members in order and leads to rest or nearer to it. -/
theorem round_nearer (hp : p.Viable) (e : Surroundings p) (hw : w.Tidy p) :
    (w.round e).Tidy p ∧ ((w.round e).Settled ∨ (w.round e).distance < w.distance) := by
  have htidy : (w.join e).Tidy p := hw.join
  have hjoined : (w.join e).Joined := joined_join
  have hdistance : (w.join e).distance = w.distance := distance_join
  rw [← hdistance]
  -- in two phases, the pass takes a look
  have hobserve (hphase : (w.join e).object.phase = .submitted ∨ (w.join e).object.phase = .ready)
      (hadvance : (w.join e).object.advance e.settings = (w.join e).object.observe e.settings) :
      (w.round e).Tidy p ∧ ((w.round e).Settled ∨ (w.round e).distance < (w.join e).distance) := by
    have hst : (w.join e).object.status ≠ none :=
      Pool.phase_ne_empty (by rcases hphase with h | h <;> simp [h])
    obtain ⟨f, hends⟩ := exists_ends_observe htidy hst
    rw [(round_eq hp hw (hadvance ▸ hends)).1]
    exact ⟨htidy.report _, observed_nearer hp htidy hjoined hphase⟩
  cases hphase : (w.join e).object.phase with
  | empty =>
    obtain ⟨f, t, hends⟩ := exists_ends_prepare e hp htidy
    rw [(round_eq hp hw (by rw [Pool.advance, hphase]; exact hends)).1]
    exact ⟨htidy.report _, .inr (prepared_nearer hphase _)⟩
  | tokenReady =>
    obtain ⟨f, t, members, hends, hafter, hlen⟩ := exists_ends_submit e hp htidy
    rw [(round_eq hp hw (by rw [Pool.advance, hphase]; exact hends)).1]
    exact ⟨hafter.report _, .inr (submitted_nearer hp htidy hphase hlen rfl rfl)⟩
  | submitted => exact hobserve (.inl hphase) (by rw [Pool.advance, hphase])
  | ready => exact hobserve (.inr hphase) (by rw [Pool.advance, hphase])
  | cleanupNodes =>
    obtain ⟨f, members, hends, hsub, hlen⟩ := exists_ends_shrink e htidy
    rw [(round_eq hp hw (by rw [Pool.advance, hphase]; exact hends)).1]
    exact ⟨(htidy.populate hsub).report _, .inr (shrunk_nearer hp htidy hphase hsub hlen)⟩

theorem Settled.join (h : w.Settled) : (w.join e).Settled :=
  ⟨h.phase, h.ready, h.requested, h.needed, (congrArg Nat.cast (List.length_map e.joined)).trans h.members⟩

theorem Settled.statusOrNew_phase (h : w.Settled) : w.object.statusOrNew.phase = .ready := by
  have hphase := h.phase
  unfold Pool.phase at hphase
  unfold Pool.statusOrNew
  cases hst : w.object.status <;> simp_all

/-- At rest, what is seen is on record. -/
theorem Settled.seen_eq (h : w.Settled) (hw : w.Tidy p) (hjoined : w.Joined) :
    w.seen = w.object.statusOrNew := by
  have hgap : w.gap = 0 := by
    have := h.members
    unfold gap
    omega
  rw [seen_of_requested hw hjoined hgap h.requested, ← h.ready, ← h.needed, ← h.statusOrNew_phase]

/-- At rest, a pass only looks, and the pool stays at rest. -/
theorem Settled.round (h : w.Settled) (hp : p.Viable) (e : Surroundings p) (hw : w.Tidy p) :
    (w.round e).Settled ∧ ∀ t ∈ w.steps e, t = .cluster (.listInstances p.name) := by
  have htidy : (w.join e).Tidy p := hw.join
  have hrest : (w.join e).Settled := h.join
  have hseen := hrest.seen_eq htidy joined_join
  obtain ⟨is, hlist, hfleet, -⟩ : ∃ is, (e.logic (· = .cluster (.listInstances p.name))).Yields _
    (w.join e) is (w.join e) ∧ _ := exists_yields_list htidy rfl
  have hobserve : (e.logic (· = .cluster (.listInstances p.name))).Yields
      ((w.join e).object.advance e.settings) (w.join e) .onChange (w.join e) := by
    unfold Pool.advance Pool.observe
    rw [hrest.phase]
    refine hlist.bind ?_
    dsimp only
    rw [hfleet]
    change (e.logic _).Yields (if (w.join e).seen = (w.join e).object.statusOrNew then _ else _) _ _ _
    have hnext : (w.join e).seen.phase = .ready := hseen ▸ hrest.statusOrNew_phase
    unfold seen at hnext
    rw [if_pos hseen, hnext]
    exact Logic.yields_pure
  obtain ⟨hround, hsteps⟩ := round_eq hp hw hobserve
  exact ⟨hround ▸ hrest, hsteps⟩

/-! ## Runs -/

variable {es : Nat → Surroundings p}

theorem Tidy.rounds (hp : p.Viable) (hw : w.Tidy p) (n : Nat) : (w.rounds es n).Tidy p := by
  induction n with
  | zero => exact hw
  | succ n ih => exact (round_nearer hp (es n) ih).1

/-- Once at rest, the pool stays at rest. -/
theorem Settled.rounds {k n : Nat} (hp : p.Viable) (hw : w.Tidy p) (hk : (w.rounds es k).Settled)
    (hkn : k ≤ n) : (w.rounds es n).Settled := by
  induction hkn with
  | refl => exact hk
  | step _ ih => exact (ih.round hp _ (hw.rounds hp _)).1

/-- Until the pool has come to rest, every round brings it nearer. -/
theorem settled_or_nearer (hp : p.Viable) (hw : w.Tidy p) (n : Nat) :
    (∃ k ≤ n, (w.rounds es k).Settled) ∨ (w.rounds es n).distance + n ≤ w.distance := by
  induction n with
  | zero => exact .inr (Nat.le_refl _)
  | succ n ih =>
    rcases ih with ⟨k, hk, hsettled⟩ | hnear
    · exact .inl ⟨k, Nat.le_succ_of_le hk, hsettled⟩
    · rcases (round_nearer hp (es n) (hw.rounds hp n)).2 with hsettled | hlt
      · exact .inl ⟨n + 1, Nat.le_refl _, hsettled⟩
      · refine .inr ?_
        show ((w.rounds es n).round (es n)).distance + (n + 1) ≤ w.distance
        omega

end PoolScene

/-- From any status and any members in order, a pool whose calls succeed comes to rest in at most
five rounds: it has exactly the wanted members, all have joined, and this is on record. From then on
it stays at rest, and every pass takes no other step than to list the members. -/
theorem Pool.converges {p : Pool} (hp : p.Viable) {w : PoolScene} (hw : w.Tidy p)
    (es : Nat → Surroundings p) : ∃ k ≤ 5, ∀ n ≥ k, (w.rounds es n).Settled ∧
      ∀ t ∈ (w.rounds es n).steps (es n), t = .cluster (.listInstances p.name) := by
  obtain ⟨k, hk, hsettled⟩ : ∃ k ≤ 5, (w.rounds es k).Settled := by
    refine (PoolScene.settled_or_nearer hp hw 5).resolve_right fun hnear => ?_
    have := w.distance_le
    have := (w.rounds es 5).distance_pos
    omega
  refine ⟨k, hk, fun n hn => ?_⟩
  have hrest : (w.rounds es n).Settled := hsettled.rounds hp hw hn
  exact ⟨hrest, (hrest.round hp (es n) (hw.rounds hp n)).2⟩

/-- A pool that wants one member, and is on record to have one too many. -/
def Pool.stale : Pool where
  metadata := { name := some "workers", uid := some "u-workers" }
  spec := { count := 1, plan := "c3.small" }
  status := some { phase := .cleanupNodes, requested := 2, needed := -1 }

/-- Surroundings of that pool. -/
def Surroundings.plain : Surroundings Pool.stale where
  settings := { Settings.standard with joinToken := some "join" }
  memory := ∅
  secret := { data := some (.ofList [(Credentials.tokenKey, []), (Credentials.projectKey, [])]) }
  service := { status := some { loadBalancer := some { ingress := some [{ ip := some "10.0.0.1" }] } } }
  controlPlane := [{}]
  listed is := is
  draw _ := default
  now := .epoch
  joined i := { i with status := some { i.statusOrNew with phase := .managed } }
  token := ⟨"join", rfl, by decide⟩
  credentials := ⟨⟨"", ""⟩, by with_unfolding_all rfl⟩
  address := ⟨"10.0.0.1", rfl⟩
  perm _ := .rfl
  fresh is h := by
    have hnone : is.length = 0 := by
      change (is.length : Int) < 1 at h
      omega
    simp [List.length_eq_zero_iff.1 hnone]
  joined_metadata _ := rfl
  joined_phase _ := rfl

/-- The pool with the one member that it wants. -/
def PoolScene.stale : PoolScene where
  object := Pool.stale
  members := [{ metadata := { name := some "workers-a", labels := some (.ofList [(Names.poolLabel, "workers")]) } }]

/-- Its member is removed by the stale record, and another one is made. -/
theorem Pool.converges_stale : Pool.stale.Viable ∧ PoolScene.stale.Tidy Pool.stale ∧
    ∃ k ≤ 5, ∀ n ≥ k, (PoolScene.stale.rounds (fun _ => .plain) n).Settled ∧
      ∀ t ∈ (PoolScene.stale.rounds (fun _ => .plain) n).steps .plain,
        t = .cluster (.listInstances Pool.stale.name) := by
  have hp : Pool.stale.Viable := ⟨rfl, rfl, rfl, rfl⟩
  have hw : PoolScene.stale.Tidy Pool.stale := by
    refine ⟨rfl, rfl, by decide, fun i hi => ?_, fun i hi => ?_, by decide⟩
    · rw [List.mem_singleton.1 hi]
      decide
    · rw [List.mem_singleton.1 hi]
      rfl
  exact ⟨hp, hw, Pool.converges hp hw fun _ => .plain⟩

end BareMetal
