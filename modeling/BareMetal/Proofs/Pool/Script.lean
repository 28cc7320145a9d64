import BareMetal.Proofs.Pool.Site
import BareMetal.Proofs.Script

/-!
# The script of passes over a pool

What a pass over a pool may do, from place to place (`Pool.May`), and that every pass does so whatever its
steps are answered with (`Pool.pass_follows`): one lemma for each function, from the steps up. Steps that only
look, and announcements, are made anywhere.
-/

namespace BareMetal

open PoolPass

/-! ## The script -/

/-- The step leaves the fleet, the record and the locks alone, and shows no Instances and no address. -/
def PoolStep.passive : PoolStep → Bool
  | .cluster (.getSecret ..) | .cluster .listControlPlane | .announce _ | .draw | .readBootstrap _ => true
  | .cluster (.writeStatus ..) | .cluster (.getService ..) | .cluster (.listInstances _)
  | .cluster (.createInstance _) | .cluster (.deleteInstance _) | .lock _ | .unlock _ => false

namespace Pool

/-- Where a pass over a pool is. -/
inductive Place
  /-- Nothing was done yet. -/
  | opened
  /-- The pass has the lock, and may have been shown the address at which machines join. -/
  | locked (address? : Option String)
  /-- The pass has the lock, and still is to create so many Instances. -/
  | creating (address : String) (missing : Nat)
  /-- These Instances were listed. -/
  | counted (is : List Instance)
  /-- The status was written, or a call failed. -/
  | ended

/-- Where the answer to a call leads, a failure to the end. -/
def Place.after {α : Type} (dest : α → Place) : Except Failure α → Place
  | .ok a => dest a
  | .error _ => .ended

theorem Place.forall_after {α : Type} {P : Place → Prop} {dest : α → Place} {r : Except Failure α}
    (hended : P .ended) (hdest : ∀ a, r = .ok a → P (dest a)) : P (after dest r) := by
  cases r with
  | ok a => exact hdest a rfl
  | error => exact hended

/-- The statuses that a pass over the pool writes at the place. -/
inductive WritesAt (p : Pool) : Place → PoolStatus → Prop
  | prepared {token} : p.phase = .empty → p.WritesAt .opened
    { phase := .tokenReady, ready := 0, requested := p.spec.count, needed := p.spec.count, token := some token }
  | created {address token} : p.phase = .tokenReady → p.WritesAt (.creating address 0) { p.statusOrNew with
      phase := .submitted, requested := p.spec.count, needed := 0, token := some token }
  | observed {is} : p.phase ≠ .cleanupNodes →
    p.WritesAt (.counted is) (p.statusOrNew.settle p.spec.count (.ofInstances is))
  | removed {is} : p.phase = .cleanupNodes → p.WritesAt (.counted is) (p.statusOrNew.afterRemovals
      (.ofNat (Fleet.removalCandidates is (-p.statusOrNew.needed)).length))

/-- The script of a pass over the pool. -/
inductive May (s : Settings) (p : Pool) : Script PoolStep PoolStep.Answer Place
  | look {st t} : t.passive = true → May s p st t fun _ => st
  | lock : p.phase = .tokenReady → May s p .opened (.lock p.name) fun _ => .locked none
  | unlock {st} : May s p st (.unlock p.name) fun _ => .ended
  | findIngress : May s p (.locked none) (.cluster (.getService s.ingressSpace s.ingressService))
    (.after fun service? => .locked (service?.bind (·.address?)))
  | listMissing {address} : May s p (.locked (some address)) (.cluster (.listInstances p.name))
    (.after fun is => .creating address
      (Fleet.creatable p.spec.count p.statusOrNew.needed (Fleet.ofInstances is).present).toNatClampNeg)
  | create {m d i n} : p.phase = .tokenReady → p.synthesize m s d = .ok i →
    May s p (.creating m.address (n + 1)) (.cluster (.createInstance i)) (.after fun _ => .creating m.address n)
  | list : p.phase ≠ .tokenReady → May s p .opened (.cluster (.listInstances p.name)) (.after .counted)
  | delete {is name} : p.phase = .cleanupNodes →
    May s p (.counted is) (.cluster (.deleteInstance name)) (.after fun _ => .counted is)
  | record {st status} : p.WritesAt st status →
    May s p st (.cluster (.writeStatus p.name status)) (.after fun _ => .ended)

/-! ## Steps -/

/-- From places that satisfy `P`, the part of a pass follows the script, and its result satisfies `Q` where it
ends. -/
abbrev Walks (s : Settings) (p : Pool) {α : Type} (P : Place → Prop) (x : PoolPass α) (Q : α → Place → Prop) :
    Prop :=
  ((Logic.ofScript (May s p)).withMemory Backoff).Leads P x Q

variable {s : Settings} {p : Pool} {α : Type} {P : Place → Prop} {st : Place}

theorem walks_look {t : PoolStep} (ht : t.passive = true) :
    Walks s p P (ExceptT.lift (step t) : PoolPass t.Answer) fun _ => P :=
  Logic.leadsOr_lift fun _ hst => Logic.wp_scripted (.look ht) fun _ => hst

theorem walks_ask {c : PoolCall} (hc : (PoolStep.cluster c).passive = true) :
    Walks s p P (cluster c) fun _ => P := fun _ hst =>
  Logic.wp_scripted (.look hc) fun _ => ⟨fun _ _ => hst, fun _ _ => trivial⟩

/-- A call is made at its place in the script. -/
theorem walks_call {c : PoolCall} {dest : c.Result → Place} (hc : May s p st (.cluster c) (.after dest)) :
    Walks s p (· = st) (cluster c) fun a => (· = dest a) := by
  rintro _ rfl
  refine Logic.wp_scripted hc fun r => ⟨?_, fun _ _ => trivial⟩
  rintro a rfl
  rfl

theorem walks_announce {e : Event} : Walks s p P (announce e) fun _ => P := walks_look (t := .announce e) rfl

/-- Something may be announced before the rest. -/
theorem walks_announceIf {c : Prop} [Decidable c] {e : Event} {k : Unit → PoolPass α} {Q : α → Place → Prop}
    (hk : Walks s p P (k ()) Q) : Walks s p P (if c then announce e >>= k else k ()) Q := by
  split
  · exact walks_announce.bind fun _ => hk
  · exact hk

theorem walks_record {status : PoolStatus} (h : p.WritesAt st status) :
    Walks s p (· = st) (p.record status) fun _ _ => True :=
  Logic.LeadsOr.weaken (walks_call (.record h)) fun _ _ _ => trivial

theorem walks_check {r : Except Failure α} : Walks s p P (check r) fun _ => P :=
  Logic.leads_check fun _ _ _ h => h

theorem walks_pure {a : α} : Walks s p P (pure a) fun _ _ => True := Logic.leadsOr_pure fun _ _ => trivial

/-! ## One lemma for each function -/

theorem walks_resolveToken : Walks s p P s.resolveToken fun _ => P := by
  unfold Settings.resolveToken
  split
  · exact Logic.leadsOr_pure fun _ h => h
  · refine (walks_look (t := .readBootstrap _) rfl).bind fun text => ?_
    cases text with
    | error => exact Logic.leads_throw _
    | ok => exact walks_check

theorem walks_resolveCredentials : Walks s p P s.resolveCredentials fun _ => P := by
  refine (walks_ask rfl).bind fun secret? => ?_
  cases secret? with
  | none => exact Logic.leads_throw _
  | some => exact walks_check

theorem walks_resolveAddress :
    Walks s p (· = .locked none) s.resolveAddress fun address => (· = .locked (some address)) := by
  refine (walks_call .findIngress).bind fun service? => ?_
  cases service? with
  | none => exact Logic.leads_throw _
  | some service =>
    dsimp only
    split
    · exact Logic.leads_throw _
    · next address haddress =>
      refine Logic.leadsOr_pure ?_
      rintro _ rfl
      exact congrArg Place.locked haddress

theorem walks_prepare (hphase : p.phase = .empty) :
    Walks s p (· = .opened) (p.prepare s) fun _ _ => True := by
  unfold prepare
  split
  · exact Logic.leads_throw _
  · refine walks_resolveToken.bind fun token => ?_
    exact (walks_record (.prepared hphase)).bind fun _ => walks_pure

theorem walks_createInstances {m : JoinMaterial} (hphase : p.phase = .tokenReady) (n : Nat) :
    Walks s p (· = .creating m.address n) (createInstances s p m n) fun _ => (· = .creating m.address 0) := by
  induction n with
  | zero => exact Logic.leadsOr_pure fun _ h => h
  | succ n ih =>
    refine (walks_look (t := .draw) rfl).bind fun d => ?_
    refine Logic.LeadsOr.bind (Q := fun i st => p.synthesize m s d = .ok i ∧ st = .creating m.address (n + 1))
      (Logic.leads_check fun _ hi _ hst => ⟨hi, hst⟩) fun i st hst => ?_
    exact (walks_call (.create hphase hst.1)).bind (fun _ => ih) st hst.2

theorem walks_submitLocked (hphase : p.phase = .tokenReady) :
    Walks s p (· = .locked none) (p.submitLocked s) fun _ _ => True := by
  unfold submitLocked
  refine walks_resolveCredentials.bind fun credentials => ?_
  refine Logic.LeadsOr.bind (walks_ask rfl) fun nodes => walks_announceIf ?_
  refine walks_resolveAddress.bind fun address => ?_
  extract_lets status done rest
  have hrest (token : String) : Walks s p (· = .locked (some address)) (rest token) fun _ _ => True := by
    unfold rest done
    refine (walks_call .listMissing).bind fun is => ?_
    refine (walks_createInstances (m := ⟨credentials, token, address⟩) hphase _).bind fun _ => ?_
    exact (walks_record (.created hphase)).bind fun _ => walks_announceIf walks_pure
  cases p.status.bind (·.token) with
  | some token => exact hrest token
  | none => exact walks_resolveToken.bind hrest

theorem walks_submit (hphase : p.phase = .tokenReady) :
    Walks s p (· = .opened) (p.submit s) fun _ _ => True := by
  have hlock : Walks s p (· = .opened) (ExceptT.lift (step (.lock p.name)) : PoolPass Unit)
      fun _ => (· = .locked none) := by
    refine Logic.leadsOr_lift ?_
    rintro _ rfl
    exact Logic.wp_scripted (.lock hphase) fun _ => rfl
  have hunlock : Walks s p (fun _ => True) (ExceptT.lift (step (.unlock p.name)) : PoolPass Unit)
      fun _ _ => True :=
    Logic.leadsOr_lift fun _ _ => Logic.wp_scripted .unlock fun _ => trivial
  refine hlock.bind fun _ => ?_
  refine (walks_submitLocked hphase).attempt.bind fun r => ?_
  -- whatever came of it, the lock is released
  exact (hunlock.strengthen fun _ _ => trivial).bind fun _ => walks_check

theorem walks_observe (hphase : p.phase ≠ .tokenReady) (hstays : p.phase ≠ .cleanupNodes) :
    Walks s p (· = .opened) (p.observe s) fun _ _ => True := by
  refine (walks_call (.list hphase)).bind fun is => ?_
  extract_lets fleet next done rest
  -- what comes after the status is the same whether it is written or not
  have hrest : ∀ u, Walks s p (fun _ => True) (rest u) fun _ _ => True := by
    intro u
    unfold rest done
    split
    · split
      · exact walks_pure
      · exact walks_announce.bind fun _ => walks_pure
    all_goals exact walks_pure
  split
  · exact (hrest ()).strengthen fun _ _ => trivial
  · exact (walks_record (.observed hstays)).bind hrest

theorem walks_deleteInstances {is : List Instance} (hphase : p.phase = .cleanupNodes) (names : List String) :
    Walks s p (· = .counted is) (deleteInstances names) fun _ => (· = .counted is) := by
  induction names with
  | nil => exact Logic.leadsOr_pure fun _ h => h
  | cons name names ih => exact (walks_call (.delete hphase)).bind fun _ => ih

theorem walks_shrink (hphase : p.phase = .cleanupNodes) :
    Walks s p (· = .opened) p.shrink fun _ _ => True := by
  refine (walks_call (.list (by simp [hphase]))).bind fun is => ?_
  refine (walks_deleteInstances hphase _).bind fun _ => ?_
  refine (walks_record (.removed hphase)).bind fun _ => ?_
  dsimp only
  split
  · exact walks_pure
  · exact walks_announce.bind fun _ => walks_pure

theorem walks_advance : Walks s p (· = .opened) (p.advance s) fun _ _ => True := by
  unfold advance
  split
  · next h => exact walks_prepare h
  · next h => exact walks_submit h
  · next h => exact walks_observe (by simp [h]) (by simp [h])
  · next h => exact walks_observe (by simp [h]) (by simp [h])
  · next h => exact walks_shrink h

theorem walks_reconcile : Walks s p (· = .opened) (p.reconcile s) fun _ _ => True := by
  have hreset {P : Place → Prop} : Walks s p P
      (ExceptT.lift (modify fun b => b.reset p.name) : PoolPass Unit) fun _ _ => True :=
    Logic.leadsOr_lift fun _ _ => Logic.wp_modify trivial
  unfold reconcile
  split
  · exact hreset.bind fun _ => walks_pure
  · refine walks_advance.attempt.bind fun r => ?_
    cases r with
    | ok next => exact hreset.bind fun _ => walks_pure
    | error f =>
      dsimp only
      split
      · exact Logic.leads_throw f
      · exact walks_announce.bind fun _ => Logic.leads_throw f

/-- Every pass over a pool follows the script. -/
theorem pass_follows (s : Settings) (b : Backoff) (p : Pool) :
    (p.pass s b).Follows (May s p) (fun _ _ => True) .opened :=
  (walks_reconcile .opened rfl b).mono fun _ _ _ => trivial

end Pool

end BareMetal
