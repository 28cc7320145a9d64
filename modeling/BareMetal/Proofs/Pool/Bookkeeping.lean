import BareMetal.Proofs.Pool.Removal

/-!
# Bookkeeping

What runs of passes make of the counts on record. A pass writes one of four statuses
(`Pool.WritesAt`), whatever its calls are answered with; from a record whose counts add up for its
phase (`PoolStatus.Balanced`) each of them adds up again. So the counts of a pool always do, more
Instances are accounted for than wanted only while the pool shrinks, and no number of 32 bits ever
overflows (`Pool.always_balanced`).
-/

namespace BareMetal

open PoolPass

/-! ## Counts that add up -/

/-- The number of Instances that a pass removes with this excess on record. -/
def Fleet.removals (is : List Instance) (needed : Int32) : Nat := (removalCandidates is (-needed)).length

namespace PoolStatus

/-- The counts add up for the phase. What is accounted for is what is wanted, and while the pool
shrinks, the recorded excess on top of it. -/
def Balanced (count : Int32) (s : PoolStatus) : Prop :=
  match s.phase with
  | .empty => False
  | .tokenReady => s.requested = count ∧ 0 ≤ s.needed ∧ s.needed ≤ count
  | .submitted => s.requested.toInt + s.needed.toInt = count.toInt ∧ s.needed ≤ 0
  | .cleanupNodes => s.requested.toInt + s.needed.toInt = count.toInt ∧ s.needed < 0
  | .ready => s.requested = count ∧ s.ready = count ∧ s.needed = 0

/-- No number of 32 bits overflows in a pass that finds the status and lists the Instances: each is
the whole number that it stands for. -/
structure Exact (count : Int32) (s : PoolStatus) (is : List Instance) : Prop where
  present : (Fleet.ofInstances is).present.toInt = Fleet.live is
  ready : (Fleet.ofInstances is).ready.toInt = is.countP fun i => i.phase = .managed && !i.isDeleting
  gap : (count - (Fleet.ofInstances is).present).toInt =
    count.toInt - (Fleet.ofInstances is).present.toInt
  excess : (-s.needed).toInt = -s.needed.toInt
  removed : (Int32.ofNat (Fleet.removals is s.needed)).toInt = Fleet.removals is s.needed
  requested : (s.requested - .ofNat (Fleet.removals is s.needed)).toInt =
    s.requested.toInt - Fleet.removals is s.needed
  needed : (s.needed + .ofNat (Fleet.removals is s.needed)).toInt =
    s.needed.toInt + Fleet.removals is s.needed

variable {count : Int32} {s : PoolStatus} {is : List Instance}

/-- Whatever is seen of the fleet, the counts add up afterwards. -/
theorem balanced_settle {fleet : Fleet} (hcount : 0 ≤ count.toInt) (hpresent : 0 ≤ fleet.present.toInt) :
    (s.settle count fleet).Balanced count := by
  have hgap := Fleet.toInt_gap hcount hpresent
  unfold settle
  split
  · next hready =>
    simp only [Bool.and_eq_true, decide_eq_true_eq] at hready
    exact ⟨hready.1.1, hready.1.2, rfl⟩
  · dsimp only
    by_cases hpos : 0 < count - fleet.present
    · have hneg : ¬count - fleet.present < 0 := Int32.not_lt.2 (Int32.le_of_lt hpos)
      simp only [Balanced, gt_iff_lt, if_pos hpos, if_neg hneg]
      refine ⟨trivial, Int32.le_of_lt hpos, Int32.le_iff_toInt_le.2 ?_⟩
      omega
    · by_cases hneg : count - fleet.present < 0
      · simp only [Balanced, gt_iff_lt, if_neg hpos, if_pos hneg]
        refine ⟨?_, hneg⟩
        omega
      · simp only [Balanced, gt_iff_lt, if_neg hpos, if_neg hneg]
        have hle := Int32.le_iff_toInt_le.1 (Int32.not_lt.1 hpos)
        have hge := Int32.le_iff_toInt_le.1 (Int32.not_lt.1 hneg)
        rw [Int32.toInt_zero] at hle hge
        exact ⟨by omega, Int32.not_lt.1 hpos⟩

/-- Neither what is accounted for nor the excess can be more than there is room for. -/
theorem Balanced.bounds (h : s.Balanced count) (hcount : 0 ≤ count.toInt) :
    0 ≤ s.requested.toInt ∧ -2 ^ 31 < s.needed.toInt ∧
      (s.needed.toInt ≤ 0 → s.requested.toInt + s.needed.toInt = count.toInt) := by
  have hlt := s.requested.toInt_lt
  have hzero : (0 : Int32).toInt = 0 := Int32.toInt_zero
  unfold Balanced at h
  split at h
  · exact h.elim
  · have hneeded := Int32.le_iff_toInt_le.1 h.2.1
    rw [h.1]
    omega
  · have hneeded := Int32.le_iff_toInt_le.1 h.2
    omega
  · have hneeded := Int32.lt_iff_toInt_lt.1 h.2
    omega
  · rw [h.1, h.2.2, hzero]
    omega

end PoolStatus

namespace Fleet

variable {is : List Instance} {needed : Int32}

theorem removals_le_live : removals is needed ≤ live is := by
  unfold removals removalCandidates live
  rw [List.length_map, List.length_take, List.length_mergeSort, List.countP_eq_length_filter]
  exact Nat.min_le_right _ _

theorem removals_le_excess (is : List Instance) (h : -2 ^ 31 < needed.toInt) :
    removals is needed ≤ (-needed.toInt).toNat := by
  unfold removals removalCandidates
  rw [List.length_map, List.length_take, toNatClampNeg_removable h]
  exact Nat.min_le_left _ _

end Fleet

namespace PoolStatus

variable {count : Int32} {s : PoolStatus} {is : List Instance}

theorem Balanced.exact (h : s.Balanced count) (hcount : 0 ≤ count.toInt) (his : is.length < 2 ^ 31) :
    s.Exact count is := by
  obtain ⟨hrequested, hneeded, hsum⟩ := h.bounds hcount
  have hlt := s.needed.toInt_lt
  have hlt' := s.requested.toInt_lt
  have hlive : Fleet.live is < 2 ^ 31 := Nat.lt_of_le_of_lt List.countP_le_length his
  have hpresent := Fleet.toInt_present hlive
  have hk := Fleet.removals_le_excess is hneeded
  have hklive : Fleet.removals is s.needed < 2 ^ 31 := Nat.lt_of_le_of_lt Fleet.removals_le_live hlive
  have hremoved := Int32.toInt_ofNat_of_lt hklive
  refine ⟨hpresent, ?_, Fleet.toInt_gap hcount (by omega), ?_, hremoved, ?_, ?_⟩
  · have hmanaged : (is.countP fun i => i.phase = .managed && !i.isDeleting) ≤ is.length :=
      List.countP_le_length
    unfold Fleet.ofInstances
    dsimp only
    rw [List.filter_filter, ← List.countP_eq_length_filter]
    exact Int32.toInt_ofNat_of_lt (by omega)
  · -- the excess is not the least number, which has no negative
    rw [Int32.toInt_neg]
    exact Int.bmod_eq_of_le (by omega) (by omega)
  · rw [Int32.toInt_sub, hremoved]
    exact Int.bmod_eq_of_le (by omega) (by omega)
  · rw [Int32.toInt_add, hremoved]
    exact Int.bmod_eq_of_le (by omega) (by omega)

theorem Balanced.shrinking (h : s.Balanced count) (hmore : count < s.requested) :
    s.needed < 0 ∧ (s.phase = .cleanupNodes ∨ s.phase = .submitted) := by
  have hlt := Int32.lt_iff_toInt_lt.1 hmore
  unfold Balanced at h
  split at h
  · exact h.elim
  · exact absurd (h.1 ▸ hmore) Int32.lt_irrefl
  · next hphase =>
    refine ⟨Int32.lt_iff_toInt_lt.2 ?_, .inr hphase⟩
    rw [Int32.toInt_zero]
    omega
  · next hphase => exact ⟨h.2, .inl hphase⟩
  · exact absurd (h.1 ▸ hmore) Int32.lt_irrefl

end PoolStatus

/-! ## What a pass writes -/

namespace Pool

/-- What is on record adds up. -/
def Kept (count : Int32) (p : Pool) : Prop :=
  p.spec.count = count ∧ ∀ st, p.status = some st → st.Balanced count

/-- The pool with a status written over its own. -/
def file (p : Pool) (st : PoolStatus) : Pool := { p with status := some (st.over p.status) }

/-- The Instances that a pass was shown at the place are fewer than `2 ^ 31`. -/
def Place.Countable : Place → Prop
  | .counted is => is.length < 2 ^ 31
  | .opened | .locked _ | .creating .. | .ended => True

variable {count : Int32} {p : Pool} {st : PoolStatus} {place : Place}

theorem WritesAt.balanced (h : p.WritesAt place st) (hplace : place.Countable) (hp : p.Kept count)
    (hcount : 0 ≤ count.toInt) : st.Balanced count := by
  obtain ⟨rfl, hbalanced⟩ := hp
  cases h with
  | prepared => exact ⟨rfl, Int32.le_iff_toInt_le.2 hcount, Int32.le_refl _⟩
  | created => exact ⟨Int.add_zero _, Int32.le_refl _⟩
  | @observed is =>
    refine PoolStatus.balanced_settle hcount ?_
    rw [Fleet.toInt_present (Nat.lt_of_le_of_lt List.countP_le_length hplace)]
    omega
  | @removed is hphase =>
    obtain ⟨s, hs, hcleanup⟩ : ∃ s, p.status = some s ∧ s.phase = .cleanupNodes := by
      unfold phase at hphase
      cases hs : p.status <;> simp_all
    have hstatus : p.statusOrNew = s := by simp [statusOrNew, hs]
    have hold := hbalanced s hs
    have hexact := hold.exact hcount hplace
    rw [hstatus]
    -- no more are removed than are in excess, so the excess does not change its sign
    have hk := Fleet.removals_le_excess is (hold.bounds hcount).2.1
    simp only [PoolStatus.Balanced, hcleanup] at hold
    have hneg := Int32.lt_iff_toInt_lt.1 hold.2
    rw [Int32.toInt_zero] at hneg
    refine ⟨?_, Int32.le_iff_toInt_le.2 ?_⟩
    · show (s.requested - .ofNat (Fleet.removals is s.needed)).toInt +
        (s.needed + .ofNat (Fleet.removals is s.needed)).toInt = _
      rw [hexact.requested, hexact.needed]
      omega
    · show (s.needed + .ofNat (Fleet.removals is s.needed)).toInt ≤ (0 : Int32).toInt
      rw [hexact.needed, Int32.toInt_zero]
      omega

end Pool

/-! ## The stored pool -/

/-- The step, made on the first stored pool, can be answered so and leave the second. A listing can
show any Instances, but fewer than `2 ^ 31`. -/
def PoolStep.Files (p : Pool) : (t : PoolStep) → t.Answer → Pool → Prop
  | .cluster (.writeStatus _ st), .ok _, p' => p' = p.file st
  | .cluster (.writeStatus _ st), .error _, p' => p' = p ∨ p' = p.file st
  | .cluster (.listInstances _), .ok is, p' => is.length < 2 ^ 31 ∧ p' = p
  | _, _, p' => p' = p

namespace Pool

/-- What passes meet of the stored pool. Others leave its status and the wanted count alone. -/
def books : Outside PoolStep PoolStep.Answer Pool where
  answers t p := t.Files p
  drifts p p' := p'.status = p.status ∧ p'.spec.count = p.spec.count

/-- A pass begins on the stored pool, with any settings and any memory. -/
def Begins (p : Pool)
    (x : Program PoolStep PoolStep.Answer (Except Failure Followup × Backoff)) : Prop :=
  ∃ s b, x = p.pass s b

/-- Runs of passes over one stored pool. -/
def Reaches := books.Reaches Begins

variable {p w w' : Pool} {s : Settings} {count : Int32} {place : Place} {t : PoolStep}
  {dest : t.Answer → Place} {a : t.Answer}

/-- The script leads from where the Instances can be counted to such places. -/
theorem May.countable (h : May s p place t dest) (hplace : place.Countable) (ha : t.Files w a w') :
    (dest a).Countable := by
  cases h with
  | look => exact hplace
  | lock | unlock => trivial
  | findIngress | listMissing | create | record =>
    exact Place.forall_after (P := Place.Countable) trivial fun _ _ => trivial
  | list =>
    refine Place.forall_after (P := Place.Countable) trivial ?_
    rintro is rfl
    exact ha.1
  | delete => exact Place.forall_after (P := Place.Countable) trivial fun _ _ => hplace

/-- What a pass writes adds up if what it found does. -/
theorem pass_balanced {b : Backoff} (hp : p.Kept count) (hcount : 0 ≤ count.toInt) :
    (p.pass s b).Safe books (fun t _ => ∀ n st, t = .cluster (.writeStatus n st) → st.Balanced count)
      (fun _ _ => True) w := by
  have hkeeps (place : Place) : books.Keeps fun _ => place.Countable := fun _ _ _ h => h
  have hwrites {place t dest} (hmay : May s p place t dest) (_ : Pool) (hplace : place.Countable) :
      ∀ n st, t = .cluster (.writeStatus n st) → st.Balanced count := by
    rintro n st rfl
    cases hmay with
    | look ht => cases ht
    | record hwrites => exact hwrites.balanced hplace hp hcount
  have hsafe := (pass_follows s b p).safe_perform hkeeps hwrites
    (fun hmay _ _ _ hplace ha => hmay.countable hplace ha) (w := w) trivial
  exact hsafe.mono (fun _ _ h => h) fun _ _ _ => trivial

/-! ## Runs -/

theorem Kept.file {st : PoolStatus} (h : p.Kept count) (hst : st.Balanced count) :
    (p.file st).Kept count := by
  refine ⟨h.1, fun st' hst' => ?_⟩
  cases hst'
  exact hst

theorem Kept.files {t : PoolStep} {a : t.Answer} {p' : Pool} (h : p.Kept count)
    (ht : ∀ n st, t = .cluster (.writeStatus n st) → st.Balanced count) (ha : t.Files p a p') :
    p'.Kept count := by
  unfold PoolStep.Files at ha
  split at ha
  · exact ha ▸ h.file (ht _ _ rfl)
  · rcases ha with rfl | rfl
    · exact h
    · exact h.file (ht _ _ rfl)
  · exact ha.2 ▸ h
  · exact ha ▸ h

theorem upholds_kept (hcount : 0 ≤ count.toInt) :
    books.Upholds Begins
      (fun t _ => ∀ n st, t = .cluster (.writeStatus n st) → st.Balanced count) (Kept count) where
  drift _ _ hd h := ⟨hd.2.trans h.1, hd.1 ▸ h.2⟩
  call h ht ha := h.files ht ha
  begin := by
    rintro p _ hp ⟨s, b, rfl⟩
    exact pass_balanced hp hcount

/-- Along every run of passes over a pool that starts without status and wants a constant number of
members, whatever is listed, calls may fail with or without having taken effect, and passes may be
dropped anywhere: the counts on record add up for the phase, more is accounted for than is wanted
only while the pool shrinks, and no number overflows in the next pass. -/
theorem always_balanced {p : Pool} (hnew : p.status = none) (hcount : 0 ≤ p.spec.count)
    {y : Situation PoolStep PoolStep.Answer Pool (Except Failure Followup × Backoff)} {st : PoolStatus}
    (hr : Reaches ⟨p, none⟩ y) (hst : y.world.status = some st) :
    st.Balanced p.spec.count ∧
      (p.spec.count < st.requested → st.needed < 0 ∧ (st.phase = .cleanupNodes ∨ st.phase = .submitted)) ∧
      ∀ is : List Instance, is.length < 2 ^ 31 → st.Exact p.spec.count is := by
  have hnat : 0 ≤ p.spec.count.toInt := Int32.le_iff_toInt_le.1 hcount
  have hstart : p.Kept p.spec.count := ⟨rfl, fun st h => by simp [hnew] at h⟩
  have hbalanced := ((upholds_kept hnat).run hr hstart rfl).1.2 st hst
  exact ⟨hbalanced, hbalanced.shrinking, fun is his => hbalanced.exact hnat his⟩

/-! ## A run that shrinks -/

/-- What a pass gets from a cluster that does what it is asked, and shows these members. -/
def serve (members : List Instance) (t : PoolStep) (p : Pool) : t.Answer × Pool :=
  ((PoolSite.serve t { object := p, members }).1, (PoolSite.serve t { object := p, members }).2.object)

theorem files_serve {members : List Instance} (h : members.length < 2 ^ 31) (t : PoolStep) (p : Pool) :
    t.Files p (serve members t p).1 (serve members t p).2 := by
  have hlive : Fleet.live members < 2 ^ 31 := Nat.lt_of_le_of_lt List.countP_le_length h
  cases t with
  | cluster c =>
    cases c with
    | listInstances n =>
      simp only [serve, PoolSite.serve, PoolSite.list, if_pos hlive]
      exact ⟨h, rfl⟩
    | writeStatus | createInstance | deleteInstance | getSecret | listControlPlane | getService => rfl
  | announce | lock | unlock | draw | readBootstrap => rfl

/-- The pool after one pass of up to eight calls. -/
def afterPass (members : List Instance) (p : Pool) : Pool :=
  ((p.pass { Settings.standard with joinToken := some "join" } ∅).follow (serve members) 8 p).2

theorem reaches_afterPass {members : List Instance} (h : members.length < 2 ^ 31) (p : Pool) :
    Reaches ⟨p, none⟩ ⟨p.afterPass members, none⟩ := by
  have hbegin : Reaches ⟨p, none⟩
      ⟨p, some (p.pass { Settings.standard with joinToken := some "join" } ∅)⟩ :=
    .single (.begin ⟨_, _, rfl⟩)
  exact (hbegin.trans (Outside.reaches_follow (o := books) (files_serve h) 8 _ p)).tail .stop

/-- A pool that wants one member and is shown two accounts for two, one too many. -/
theorem always_balanced_crowded :
    ∃ y : Situation PoolStep PoolStep.Answer Pool (Except Failure Followup × Backoff),
      ∃ st : PoolStatus, Reaches ⟨single, none⟩ y ∧ y.world.status = some st ∧
      st.phase = .cleanupNodes ∧ st.Balanced 1 ∧
      (1 < st.requested → st.needed < 0 ∧ (st.phase = .cleanupNodes ∨ st.phase = .submitted)) ∧
      ∀ is : List Instance, is.length < 2 ^ 31 → st.Exact 1 is := by
  have hstep (p : Pool) : Reaches ⟨p, none⟩ ⟨p.afterPass PoolSite.crowded.members, none⟩ :=
    reaches_afterPass (by decide) p
  have hr := ((hstep single).trans (hstep _)).trans (hstep _)
  have hst : (((single.afterPass PoolSite.crowded.members).afterPass
      PoolSite.crowded.members).afterPass PoolSite.crowded.members).status =
      some { phase := .cleanupNodes, ready := 0, requested := 2, needed := -1, token := some "join" } := by
    with_unfolding_all rfl
  exact ⟨_, _, hr, hst, rfl, always_balanced rfl (by decide) hr hst⟩

end Pool

end BareMetal
