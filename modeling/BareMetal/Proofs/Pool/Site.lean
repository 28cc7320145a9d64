import BareMetal.Pool.World
import BareMetal.Proofs.Logic
import BareMetal.Proofs.Pool.Sizing

/-!
# The outside of a pool

What passes over one pool meet: the stored pool and its members. Calls can be answered, or fail
with or without having taken effect. Between calls members come to be deleted or vanish, and if the
pass is not the only one, others change the pool and the fleet as well. The site keeps how many
members went since the pool was last counted.
-/

namespace BareMetal

/-- One pass over a pool. -/
def Pool.pass (s : Settings) (b : Backoff) (p : Pool) :
    Program PoolStep PoolStep.Answer (Except Failure Followup × Backoff) :=
  (p.reconcile s).run.run b

/-- The outside of passes over one pool. -/
structure PoolSite where
  /-- The stored pool. -/
  object : Pool
  members : List Instance := []
  /-- How many members went since the pool was last counted, the count being the last listing
  outside of the phase in which members are removed. -/
  left : Nat := 0
  /-- Whether the pass holds the lock of the pool. -/
  inside : Bool := false

namespace PoolSite

/-- The number of members that are not being deleted. -/
def live (w : PoolSite) : Nat := Fleet.live w.members

/-- Lets the members change, and counts those that go. -/
def shed (w : PoolSite) (members : List Instance) : PoolSite :=
  { w with members := members, left := w.left + (w.live - Fleet.live members) }

end PoolSite

/-! ## Calls that take effect -/

/-- A status written over an older one: what it does not mention stays. -/
def PoolStatus.over (new : PoolStatus) (old : Option PoolStatus) : PoolStatus :=
  { new with token := new.token <|> old.bind (·.token) }

/-- An Instance as it is stored when it is created. -/
def Instance.storedAs (i : Instance) (name : String) (now : Stamp) : Instance :=
  { i with metadata := { i.metadata with name := some name, creationTimestamp := some now } }

namespace PoolCall

/-- The call takes the first site to the second. -/
def Takes (w w' : PoolSite) : PoolCall → Prop
  | .writeStatus _ st =>
    w' = { w with object := { w.object with status := some (st.over w.object.status) } }
  | .listInstances _ => w' = { w with left := if w.object.phase = .cleanupNodes then w.left else 0 }
  | .createInstance i => ∃ name now members,
    members.Perm (i.storedAs name now :: w.members) ∧ w' = { w with members := members }
  | .deleteInstance name => ∃ now, w' = w.shed (w.members.filterMap fun i =>
    if i.name = name then PoolWorld.deleted now i else some i)
  | .getSecret .. | .listControlPlane | .getService .. => w' = w

/-- The answer fits the call. A listing is complete, and no cluster holds so many Instances that a
listing of them could not be counted in 32 bits. -/
def Fits (w : PoolSite) : (c : PoolCall) → c.Result → Prop
  | .listInstances _, is => is.Perm w.members ∧ Fleet.live is < 2 ^ 31
  | .getSecret .., _ | .listControlPlane, _ | .getService .., _ => True
  | .writeStatus .., _ | .createInstance _, _ | .deleteInstance _, _ => True

end PoolCall

/-- The step, made at the first site, can be answered so and leave the second. -/
def PoolStep.Answers (w : PoolSite) : (t : PoolStep) → t.Answer → PoolSite → Prop
  | .cluster c, .ok a, w' => c.Takes w w' ∧ c.Fits w a
  | .cluster c, .error _, w' => w' = w ∨ c.Takes w w'
  | .lock _, _, w' => w' = { w with inside := true }
  | .unlock _, _, w' => w' = { w with inside := false }
  | .announce _, _, w' | .draw, _, w' | .readBootstrap _, _, w' => w' = w

/-! ## Sites that change by themselves -/

/-- How a site changes between the calls of a pass. If the pass is not alone, others can change
all of it; but while the pass holds the lock, they make no members. -/
inductive PoolSite.Drifts (alone : Bool) : PoolSite → PoolSite → Prop
  | leave {w members} : Fleet.live members ≤ w.live → Drifts alone w (w.shed members)
  | edit {w p} : p.name = w.object.name → p.status = w.object.status →
    p.spec.count = w.object.spec.count → Drifts alone w { w with object := p }
  | others {w w'} : alone = false → w'.inside = w.inside → (w.inside = true → w'.live ≤ w.live) →
    Drifts alone w w'

namespace PoolSite

/-- The outside of a pass over a pool, alone or with other passes at the same time. -/
def outside (alone : Bool) : Outside PoolStep PoolStep.Answer PoolSite where
  answers t w := t.Answers w
  drifts := Drifts alone

/-- A pass begins on the stored pool, with any settings and any memory. -/
def Begins (w : PoolSite)
    (p : Program PoolStep PoolStep.Answer (Except Failure Followup × Backoff)) : Prop :=
  ∃ s b, p = w.object.pass s b

/-- Runs of passes over one pool, one at a time. -/
def Reaches := (outside true).Reaches Begins

/-! ## What becomes of the members -/

variable {alone : Bool} {w w' : PoolSite}

theorem shed_tally {members : List Instance} (h : Fleet.live members ≤ w.live) :
    (w.shed members).live + (w.shed members).left = w.live + w.left := by
  show Fleet.live members + (w.left + (w.live - Fleet.live members)) = w.live + w.left
  omega

theorem Drifts.name (h : Drifts true w w') : w'.object.name = w.object.name := by
  cases h with
  | leave => rfl
  | edit hname => exact hname
  | others h => cases h

theorem Drifts.status (h : Drifts true w w') : w'.object.status = w.object.status := by
  cases h with
  | leave => rfl
  | edit _ hstatus => exact hstatus
  | others h => cases h

theorem Drifts.count (h : Drifts true w w') : w'.object.spec.count = w.object.spec.count := by
  cases h with
  | leave => rfl
  | edit _ _ hcount => exact hcount
  | others h => cases h

/-- Members of a pool whose passes are alone only go, and are counted. -/
theorem Drifts.tally (h : Drifts true w w') : w'.live + w'.left = w.live + w.left := by
  cases h with
  | leave hlive => exact shed_tally hlive
  | edit => rfl
  | others h => cases h

theorem Drifts.inside (h : Drifts alone w w') : w'.inside = w.inside := by
  cases h with
  | leave | edit => rfl
  | others _ hinside => exact hinside

/-- Under the lock, no member comes by itself. -/
theorem Drifts.live_le_self (h : Drifts alone w w') (hw : w.inside = true) :
    w'.live ≤ w.live := by
  cases h with
  | leave hlive => exact hlive
  | edit => exact Nat.le_refl _
  | others _ _ hlive => exact hlive hw

end PoolSite

namespace PoolCall

variable {c : PoolCall} {w w' : PoolSite}

theorem live_deleted_le (w : PoolSite) (name : String) (now : Stamp) :
    Fleet.live (w.members.filterMap fun i =>
      if i.name = name then PoolWorld.deleted now i else some i) ≤ w.live := by
  refine Fleet.live_filterMap_le (fun i j hj hi => ?_) w.members
  split at hj
  · unfold PoolWorld.deleted at hj
    split at hj
    · cases hj
    · cases hj
      rfl
  · cases hj
    exact hi

/-- Only a new member makes the fleet larger, by one. -/
theorem Takes.live_le (h : c.Takes w w') :
    w'.live ≤ w.live ∨ (∃ i, c = .createInstance i) ∧ w'.live ≤ w.live + 1 := by
  cases c with
  | createInstance i =>
    obtain ⟨name, now, members, hperm, rfl⟩ := h
    refine .inr ⟨⟨i, rfl⟩, ?_⟩
    show Fleet.live members ≤ Fleet.live w.members + 1
    rw [Fleet.live_perm hperm]
    exact Fleet.live_cons_le _ _
  | deleteInstance name =>
    obtain ⟨now, rfl⟩ := h
    exact .inl (live_deleted_le w name now)
  | writeStatus | listInstances | getSecret | listControlPlane | getService =>
    cases h
    exact .inl (Nat.le_refl _)

theorem Takes.inside (h : c.Takes w w') : w'.inside = w.inside := by
  cases c with
  | createInstance i =>
    obtain ⟨name, now, members, -, rfl⟩ := h
    rfl
  | deleteInstance name =>
    obtain ⟨now, rfl⟩ := h
    rfl
  | writeStatus | listInstances | getSecret | listControlPlane | getService =>
    cases h
    rfl

end PoolCall

namespace PoolStep

variable {t : PoolStep} {a : t.Answer} {w w' : PoolSite}

theorem Answers.live_le (h : t.Answers w a w') :
    w'.live ≤ w.live ∨ (∃ i, t = .cluster (.createInstance i)) ∧ w'.live ≤ w.live + 1 := by
  cases t with
  | cluster c =>
    have htakes : w' = w ∨ c.Takes w w' := by
      cases a with
      | ok => exact .inr h.1
      | error => exact h
    rcases htakes with rfl | ht
    · exact .inl (Nat.le_refl _)
    · refine ht.live_le.imp_right ?_
      rintro ⟨⟨i, rfl⟩, hle⟩
      exact ⟨⟨i, rfl⟩, hle⟩
  | announce | lock | unlock | draw | readBootstrap =>
    cases h
    exact .inl (Nat.le_refl _)

/-- Whether the step has nothing to do with locks. -/
def free : PoolStep → Bool
  | .lock _ | .unlock _ => false
  | .cluster _ | .announce _ | .draw | .readBootstrap _ => true

theorem Answers.inside (h : t.Answers w a w') (ht : t.free) : w'.inside = w.inside := by
  cases t with
  | cluster c =>
    cases a with
    | ok => exact h.1.inside
    | error =>
      rcases h with rfl | h
      · rfl
      · exact h.inside
  | lock | unlock => cases ht
  | announce | draw | readBootstrap => rw [h]

end PoolStep

/-! ## A cluster that does what it is asked -/

namespace PoolSite

/-- Lists the members, if they can be counted. -/
def list (w : PoolSite) : Except Failure (List Instance) × PoolSite :=
  if Fleet.live w.members < 2 ^ 31 then
    (.ok w.members, { w with left := if w.object.phase = .cleanupNodes then w.left else 0 })
  else (.error (.cluster (.unavailable "timeout")), w)

/-- What a pass gets from a cluster that does what it is asked. -/
def serve : (t : PoolStep) → PoolSite → t.Answer × PoolSite
  | .cluster (.writeStatus _ st), w =>
    (.ok (), { w with object := { w.object with status := some (st.over w.object.status) } })
  | .cluster (.getSecret ..), w =>
    let data := .ofList [(Credentials.tokenKey, []), (Credentials.projectKey, [])]
    (.ok (some { data := some data }), w)
  | .cluster .listControlPlane, w => (.ok [{}], w)
  | .cluster (.getService ..), w =>
    let balancer := { ingress := some [{ ip := some "10.0.0.1" }] }
    (.ok (some { status := some { loadBalancer := some balancer } }), w)
  | .cluster (.listInstances _), w => w.list
  | .cluster (.createInstance i), w =>
    (.ok (), { w with members := i.storedAs i.name .epoch :: w.members })
  | .cluster (.deleteInstance name), w => (.ok (), w.shed (w.members.filterMap fun i =>
    if i.name = name then PoolWorld.deleted .epoch i else some i))
  | .announce _, w => ((), w)
  | .lock _, w => ((), { w with inside := true })
  | .unlock _, w => ((), { w with inside := false })
  | .draw, w => (default, w)
  | .readBootstrap _, w => (.error "no such document", w)

theorem answers_list (n : String) (w : PoolSite) :
    PoolStep.Answers w (.cluster (.listInstances n)) w.list.1 w.list.2 := by
  unfold list
  split
  · next hlive => exact ⟨rfl, .rfl, hlive⟩
  · exact .inl rfl

theorem answers_serve (t : PoolStep) (w : PoolSite) : t.Answers w (serve t w).1 (serve t w).2 := by
  cases t with
  | cluster c =>
    cases c with
    | listInstances n => exact answers_list n w
    | createInstance i => exact ⟨⟨_, _, _, .rfl, rfl⟩, trivial⟩
    | deleteInstance n => exact ⟨⟨.epoch, rfl⟩, trivial⟩
    | writeStatus | getSecret | listControlPlane | getService => exact ⟨rfl, trivial⟩
  | announce | lock | unlock | draw | readBootstrap => rfl

end PoolSite

end BareMetal
