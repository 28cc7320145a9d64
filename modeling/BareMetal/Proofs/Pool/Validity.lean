import BareMetal.Proofs.Pool.Removal
import BareMetal.Proofs.Told

/-!
# Specs that cannot be acted on

Which passes check the spec of a pool. A pool that was never acted on is left alone as long as its spec
is refused. But the check is made in the first phase only: an edit that comes later is acted on, whatever
it is (`Pool.leftAlone_iff`).
-/

namespace BareMetal

open PoolPass

/-! ## Steps -/

namespace PoolPass

variable {answer : (t : PoolStep) → t.Answer} {b : Backoff}

@[simp] theorem told_check {α : Type} {r : Except Failure α} : told answer (check r) b = ⟨r, b, []⟩ := rfl

-- for `simp`, the answer of a step is not looked at before the step is known
@[simp] theorem told_cluster {c : PoolCall} :
    @told _ _ _ (no_index c.Result) answer (cluster c) b = ⟨answer (.cluster c), b, [.cluster c]⟩ := rfl

@[simp] theorem told_step {t : PoolStep} :
    @told _ _ _ (no_index t.Answer) answer (ExceptT.lift (step t)) b = ⟨.ok (answer t), b, [t]⟩ := rfl

@[simp] theorem told_locked {α : Type} {n : String} {x : PoolPass α} : told answer (locked n x) b =
    ⟨(told answer x b).result, (told answer x b).memory,
      .lock n :: ((told answer x b).calls ++ [.unlock n])⟩ := by
  unfold locked
  simp

end PoolPass

/-- The step changes the fleet or the record. -/
def PoolStep.acts : PoolStep → Bool
  | .cluster (.writeStatus ..) | .cluster (.createInstance _) | .cluster (.deleteInstance _) => true
  | .cluster (.getSecret ..) | .cluster .listControlPlane | .cluster (.getService ..)
  | .cluster (.listInstances _) | .announce _ | .lock _ | .unlock _ | .draw | .readBootstrap _ => false

namespace Pool

variable {p : Pool} {s : Settings} {b : Backoff} {answer : (t : PoolStep) → t.Answer}

/-- No pass over the pool changes anything, whatever it meets. -/
def LeftAlone (p : Pool) : Prop := ∀ s b, (p.pass s b).Only fun t => t.acts = false

/-- A pool that was never acted on is left alone if its spec is refused: the refusal is announced, and
nothing else is done. -/
theorem pass_refused {f : Failure} (hstays : p.metadata.isDeleting = false) (hphase : p.phase = .empty)
    (hinvalid : p.spec.validate = .error f) :
    let refusal := Failure.validation p.name f.message none
    p.pass s b = .call (.announce { warning := true, reason := .validationFailed, activity := .reconcile
                                    note := refusal.message }) fun _ => .done (.error refusal, b) := by
  have hadvance : p.advance s = throw (.validation p.name f.message none) := by
    unfold advance prepare
    rw [hphase, hinvalid]
    rfl
  unfold pass reconcile
  rw [hstays, hadvance]
  rfl

/-! ## Later phases -/

/-- What a pass meets in a cluster that does what it is asked, and shows these members. -/
def shown (is : List Instance) (t : PoolStep) : t.Answer :=
  (PoolSite.serve t { object := default, members := is }).1

theorem shown_list {is : List Instance} {n : String} (h : Fleet.live is < 2 ^ 31) :
    shown is (.cluster (.listInstances n)) = .ok is := by
  simp [shown, PoolSite.serve, PoolSite.list, h]

theorem calls_advance_subset (hstays : p.metadata.isDeleting = false) :
    (told answer (p.advance s) b).calls ⊆ ((p.pass s b).told answer).2 := by
  show _ ⊆ (told answer (p.reconcile s) b).calls
  unfold reconcile
  rw [hstays, if_neg (by decide), told_bind, told_attempt, Told.andThen_ok]
  exact List.subset_append_left _ _

/-- When its steps are answered so, the part of a pass writes a status of the pool. -/
def Records (p : Pool) (answer : (t : PoolStep) → t.Answer) {α : Type} (x : PoolPass α) (b : Backoff) : Prop :=
  ∃ st, .cluster (.writeStatus p.name st) ∈ (told answer x b).calls

/-- A pool is not left alone if its phase can write a status. -/
theorem Records.not_leftAlone (h : p.Records answer (p.advance s) b)
    (hstays : p.metadata.isDeleting = false) : ¬p.LeftAlone := by
  obtain ⟨st, hst⟩ := h
  intro halone
  have hacts := (halone s b).told _ (calls_advance_subset hstays hst)
  cases hacts

section Records

variable {α β : Type}

theorem Records.bind_of_ok {x : PoolPass α} {f : α → PoolPass β} {a : α} {b' : Backoff} {cs : List PoolStep}
    (h : p.Records answer (f a) b') (hx : told answer x b = ⟨.ok a, b', cs⟩) :
    p.Records answer (x >>= f) b :=
  h.imp fun _ => mem_told_bind_of_ok hx

theorem records_record {st : PoolStatus} {f : Unit → PoolPass β} : p.Records answer (p.record st >>= f) b :=
  ⟨st, mem_told_bind List.mem_cons_self⟩

end Records

/-- As many members as are wanted, as far as that can be. -/
def wanted (p : Pool) : List Instance := .replicate p.spec.count.toNatClampNeg default

theorem live_wanted : Fleet.live p.wanted = p.spec.count.toNatClampNeg := by
  unfold Fleet.live wanted
  rw [List.countP_replicate]
  exact if_pos rfl

theorem live_wanted_lt : Fleet.live p.wanted < 2 ^ 31 := by
  have hlt := p.spec.count.toInt_lt
  rw [live_wanted, Int32.toNatClampNeg]
  omega

/-- Nothing is missing where as many members are shown as are wanted. -/
theorem creatable_wanted (needed : Int32) :
    (Fleet.creatable p.spec.count needed (Fleet.ofInstances p.wanted).present).toNatClampNeg = 0 := by
  have hlt := p.spec.count.toInt_lt
  have hpresent := Fleet.toInt_present (live_wanted_lt (p := p))
  rw [live_wanted] at hpresent
  have hgap : (p.spec.count - (Fleet.ofInstances p.wanted).present).toInt ≤ 0 := by
    have hge := p.spec.count.le_toInt
    rw [Int32.toInt_sub, hpresent, Int32.toNatClampNeg]
    rw [Int.bmod_eq_of_le (by omega) (by omega)]
    omega
  rw [Int32.toNatClampNeg, Fleet.creatable, Fleet.toInt_max, Fleet.toInt_min, Int32.toInt_zero]
  omega

theorem told_resolveCredentials (is : List Instance) : ∃ c, told (shown is) s.resolveCredentials b =
    ⟨.ok c, b, [.cluster (.getSecret s.secretSpace s.credentialSecret)]⟩ := by
  refine ⟨⟨"", ""⟩, ?_⟩
  unfold Settings.resolveCredentials
  rw [told_bind, PoolPass.told_cluster]
  rfl

theorem told_resolveAddress (is : List Instance) : ∃ a, told (shown is) s.resolveAddress b =
    ⟨.ok a, b, [.cluster (.getService s.ingressSpace s.ingressService)]⟩ := by
  refine ⟨"10.0.0.1", ?_⟩
  unfold Settings.resolveAddress
  rw [told_bind, PoolPass.told_cluster]
  rfl

/-- Instances are to be created, and none is missing. -/
theorem records_submit {token : String} (htoken : s.joinToken.filter (· ≠ "") = some token) :
    p.Records (shown p.wanted) (p.submit s) b := by
  obtain ⟨c, hcredentials⟩ := told_resolveCredentials (s := s) (b := b) p.wanted
  obtain ⟨a, haddress⟩ := told_resolveAddress (s := s) (b := b) p.wanted
  have htold : told (shown p.wanted) s.resolveToken b = ⟨.ok token, b, []⟩ := by
    unfold Settings.resolveToken
    rw [htoken]
    rfl
  have hlist : told (shown p.wanted) (cluster (.listInstances p.name)) b =
      ⟨.ok p.wanted, b, [.cluster (.listInstances p.name)]⟩ := by
    rw [told_cluster, shown_list live_wanted_lt]
  have hcreate {m : JoinMaterial} : told (shown p.wanted) (createInstances s p m (Fleet.creatable p.spec.count
      p.statusOrNew.needed (Fleet.ofInstances p.wanted).present).toNatClampNeg) b = ⟨.ok (), b, []⟩ := by
    rw [creatable_wanted]
    rfl
  have hbody : p.Records (shown p.wanted) (p.submitLocked s) b := by
    unfold submitLocked
    refine .bind_of_ok ?_ hcredentials
    refine .bind_of_ok (a := [{}]) ?_ (told_cluster ..)
    dsimp only
    rw [if_neg (by decide)]
    refine .bind_of_ok ?_ haddress
    split
    · refine .bind_of_ok ?_ told_pure
      exact .bind_of_ok (.bind_of_ok records_record hcreate) hlist
    · refine .bind_of_ok ?_ htold
      exact .bind_of_ok (.bind_of_ok records_record hcreate) hlist
  obtain ⟨st, hst⟩ := hbody
  refine ⟨st, ?_⟩
  rw [submit, told_locked]
  exact List.mem_cons_of_mem _ (List.mem_append_left _ hst)

theorem ready_settle {st : PoolStatus} {count : Int32} {fleet : Fleet} :
    (st.settle count fleet).ready = fleet.ready := by
  unfold PoolStatus.settle
  split <;> rfl

/-- The pool is observed, with another number of ready members than is on record. -/
theorem exists_records_observe : ∃ is, p.Records (shown is) (p.observe s) b := by
  obtain ⟨is, his, hready⟩ : ∃ is, Fleet.live is < 2 ^ 31 ∧
      (p.statusOrNew.settle p.spec.count (.ofInstances is)).ready ≠ p.statusOrNew.ready := by
    by_cases hzero : p.statusOrNew.ready = 0
    · refine ⟨[{ status := some { phase := .managed } }], by decide, ?_⟩
      rw [ready_settle, hzero]
      decide
    · refine ⟨[], by decide, ?_⟩
      rw [ready_settle]
      exact Ne.symm hzero
  have hnext : p.statusOrNew.settle p.spec.count (.ofInstances is) ≠ p.statusOrNew := fun h =>
    hready (congrArg PoolStatus.ready h)
  refine ⟨is, ?_⟩
  unfold observe
  refine .bind_of_ok ?_ (by rw [told_cluster, shown_list his])
  dsimp only
  rw [if_neg hnext]
  exact records_record

/-- Members are to be removed, and none is there. -/
theorem records_shrink : p.Records (shown []) p.shrink b := by
  have hnobody : Fleet.removalCandidates [] (-p.statusOrNew.needed) = [] := by
    simp [Fleet.removalCandidates]
  unfold shrink
  refine .bind_of_ok ?_ (by rw [told_cluster, shown_list (by decide)])
  dsimp only
  rw [hnobody]
  exact .bind_of_ok records_record told_pure

/-- While a spec is refused, the pool is left alone in the first phase, and in no other. -/
theorem leftAlone_iff {f : Failure} (hstays : p.metadata.isDeleting = false)
    (hinvalid : p.spec.validate = .error f) : p.LeftAlone ↔ p.phase = .empty := by
  constructor
  · intro halone
    by_contra hphase
    -- in each later phase some pass writes a status
    have hrecords : ∃ s is, p.Records (shown is) (p.advance s) ∅ := by
      unfold advance
      split
      · next hempty => exact absurd hempty hphase
      · exact ⟨{ Settings.standard with joinToken := some "join" }, _, records_submit rfl⟩
      · exact ⟨.standard, exists_records_observe⟩
      · exact ⟨.standard, exists_records_observe⟩
      · exact ⟨.standard, _, records_shrink⟩
    obtain ⟨s, is, h⟩ := hrecords
    exact h.not_leftAlone hstays halone
  · intro hphase s b
    rw [pass_refused hstays hphase hinvalid]
    exact ⟨rfl, fun _ => trivial⟩

/-! ## Refused specs that are acted on -/

/-- A pool for which an Instance is to be created, and whose plan was taken away. -/
def unplanned : Pool where
  metadata := { name := some "workers", uid := some "u-workers" }
  spec := { count := 1 }
  status := some { phase := .tokenReady, requested := 1, needed := 1, token := some "join" }

/-- A pool with one member to be removed, whose wanted count became negative. -/
def negative : Pool where
  metadata := { name := some "workers" }
  spec := { count := -1, plan := "c3.small" }
  status := some { phase := .cleanupNodes, requested := 1, needed := -2, token := some "join" }

theorem leftAlone_iff_negative :
    ∃ f, negative.spec.validate = .error f ∧ (negative.LeftAlone ↔ negative.phase = .empty) :=
  ⟨_, rfl, leftAlone_iff rfl rfl⟩

/-- A pool with one member, whose wanted count became the least number. -/
def least : Pool where
  metadata := { name := some "workers" }
  spec := { count := -2147483648, plan := "c3.small" }
  status := some { phase := .submitted, requested := 1, token := some "join" }

/-- The status of that pool after a pass: more than two thousand million Instances are needed. -/
def overflown : PoolStatus :=
  { phase := .tokenReady, requested := -2147483648, needed := 2147483647, token := some "join" }

/-- The steps of a pass over the pool when it is shown these members. -/
def steps (p : Pool) (is : List Instance) : List PoolStep := ((p.pass .standard ∅).told (shown is)).2

/-- Its one member. -/
def member : Instance := { metadata := { name := some "workers-a" } }

/-- An Instance is created without a plan, one is deleted for a negative count, and for the least count
the numbers overflow. -/
theorem acts_on_refused :
    (unplanned.spec.validate.toBool = false ∧
      ∃ i, .cluster (.createInstance i) ∈ unplanned.steps [] ∧ i.spec.plan = "") ∧
    (negative.spec.validate.toBool = false ∧
      .cluster (.deleteInstance "workers-a") ∈ negative.steps [member]) ∧
    (least.spec.validate.toBool = false ∧
      .cluster (.writeStatus "workers" overflown) ∈ least.steps [member]) := by
  have hleast : least.steps [member] =
      [.cluster (.listInstances "workers"), .cluster (.writeStatus "workers" overflown)] := by
    with_unfolding_all rfl
  have hnegative : (negative.steps [member]).take 2 =
      [.cluster (.listInstances "workers"), .cluster (.deleteInstance "workers-a")] := by
    with_unfolding_all rfl
  obtain ⟨i, hi, hplan⟩ : ∃ i, (unplanned.steps [])[6]? = some (.cluster (.createInstance i)) ∧
      i.spec.plan = "" :=
    ⟨_, by with_unfolding_all rfl, rfl⟩
  refine ⟨⟨by decide, i, List.mem_of_getElem? hi, hplan⟩, ⟨by decide, ?_⟩, by decide, ?_⟩
  · refine List.mem_of_mem_take (i := 2) ?_
    rw [hnegative]
    simp
  · simp [hleast]

end Pool

end BareMetal
