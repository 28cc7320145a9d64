import BareMetal.Proofs.Pool.Script

/-!
# Passes over a pool are proper

Every step of a pass is proper: an Instance is created only under the lock and while fewer are there
than wanted, and one is deleted only while the pool is recorded to be removing some, with the
excess that was counted. What a pass knows is `PoolSite.Sees`, and under the lock `PoolSite.Room`: how many
Instances it may still create. Each step of the script is proper from what is known at its place
(`PoolSite.Known`), and leads to where it is known again.
-/

namespace BareMetal

open PoolPass PoolSite

/-! ## Proper steps -/

/-- What is a proper step of a pass over the pool with the name and the wanted count. What concerns
the stored pool is said of passes that are alone. -/
def PoolStep.Proper (alone : Bool) (name : String) (count : Int32) (t : PoolStep)
    (w : PoolSite) : Prop :=
  match t with
  | .lock n | .unlock n | .cluster (.listInstances n) => n = name
  | .cluster (.createInstance _) => w.inside = true ∧ (w.live : Int) < count.toInt ∧
    (alone = true → w.object.phase = .tokenReady)
  | .cluster (.writeStatus _ st) => alone = true → st.phase = .cleanupNodes →
    (w.live + w.left : Int) = count.toInt - st.needed.toInt
  | .cluster (.deleteInstance _) => alone = true → w.object.phase = .cleanupNodes
  | .cluster (.getSecret ..) | .cluster .listControlPlane | .cluster (.getService ..)
  | .announce _ | .draw | .readBootstrap _ => True

/-! ## What stays true -/

variable {alone : Bool} {p : Pool} {s : Settings} {w w' : PoolSite}

namespace PoolSite

/-- The pool that a pass looks at is up to date in its status, if the pass is alone. -/
def Sees (alone : Bool) (p : Pool) (w : PoolSite) : Prop :=
  alone = true → w.object.status = p.status

/-- The pass holds the lock and may create so many Instances. -/
structure Room (alone : Bool) (p : Pool) (n : Nat) (w : PoolSite) : Prop where
  sees : w.Sees alone p
  inside : w.inside = true
  room : 0 < n → (w.live + n : Int) ≤ p.spec.count.toInt

theorem Sees.phase (h : w.Sees true p) : w.object.phase = p.phase := by
  rw [Pool.phase, Pool.phase, h rfl]

theorem keeps_sees : (outside alone).Keeps (Sees alone p) := by
  rintro w w' hd h rfl
  exact (Drifts.status hd).trans (h rfl)

theorem keeps_room {n : Nat} : (outside alone).Keeps (Room alone p n) := by
  intro w w' hd h
  refine ⟨keeps_sees hd h.sees, (Drifts.inside hd).trans h.inside, fun hn => ?_⟩
  have := Drifts.live_le_self hd h.inside
  have := h.room hn
  omega

end PoolSite

/-! ## What is known at a place -/

namespace PoolSite

/-- What a pass over the pool knows of the site at the place. -/
def Known (alone : Bool) (p : Pool) : Pool.Place → PoolSite → Prop
  | .opened, w => w.Sees alone p
  | .locked _, w => w.Room alone p 0
  | .creating _ n, w => w.Room alone p n
  | .counted is, w => w.Sees alone p ∧ (alone = true → p.phase ≠ .cleanupNodes →
    Fleet.live is < 2 ^ 31 ∧ w.live + w.left = Fleet.live is)
  | .ended, _ => True

variable {st : Pool.Place} {t : PoolStep} {dest : t.Answer → Pool.Place} {a : t.Answer}

theorem keeps_known : (outside alone).Keeps (Known alone p st) := by
  cases st with
  | opened => exact keeps_sees
  | locked | creating => exact keeps_room
  | counted is =>
    intro w w' hd h
    refine ⟨keeps_sees hd h.1, ?_⟩
    rintro rfl hstays
    exact ⟨(h.2 rfl hstays).1, (Drifts.tally hd).trans (h.2 rfl hstays).2⟩
  | ended => exact Outside.keeps_true _

end PoolSite

theorem PoolStep.proper_of_passive {t : PoolStep} {name : String} {count : Int32} (ht : t.passive = true) :
    t.Proper alone name count w := by
  cases t with
  | cluster c =>
    cases c with
    | getSecret | listControlPlane => trivial
    | writeStatus | getService | listInstances | createInstance | deleteInstance => cases ht
  | announce | draw | readBootstrap => trivial
  | lock | unlock => cases ht

/-- A passive step leaves the site alone, even if it fails. -/
theorem PoolStep.Answers.eq_of_passive {t : PoolStep} {a : t.Answer} (h : t.Answers w a w')
    (ht : t.passive = true) : w' = w := by
  cases t with
  | cluster c =>
    cases c with
    | getSecret | listControlPlane =>
      cases a with
      | ok => exact h.1
      | error => exact h.elim id id
    | writeStatus | getService | listInstances | createInstance | deleteInstance => cases ht
  | announce | draw | readBootstrap => exact h
  | lock | unlock => cases ht

namespace Pool

variable {st : Place} {t : PoolStep} {dest : t.Answer → Place} {a : t.Answer}

/-- A step of the script is proper. -/
theorem May.proper (h : May s p st t dest) (hcount : 0 ≤ p.spec.count.toInt) (hw : w.Known alone p st) :
    t.Proper alone p.name p.spec.count w := by
  cases h with
  | look ht => exact PoolStep.proper_of_passive ht
  | lock | unlock | listMissing | list => rfl
  | findIngress => trivial
  | @create m d i n hphase =>
    have hroom := hw.room n.succ_pos
    refine ⟨hw.inside, by omega, ?_⟩
    rintro rfl
    exact (Sees.phase hw.sees).trans hphase
  | delete hphase =>
    rintro rfl
    exact (Sees.phase hw.1).trans hphase
  | record hwrites =>
    intro halone hcleanup
    cases hwrites with
    | observed hstays =>
      obtain ⟨hlive, htally⟩ := hw.2 halone hstays
      have hpresent := Fleet.toInt_present hlive
      rw [PoolStatus.needed_of_settle hcount (by omega) hcleanup, hpresent]
      omega
    | prepared | created | removed => cases hcleanup

/-- After a listing, no more Instances are missing by the counts than there is room for. -/
theorem room_of_listed {is : List Instance} (hcount : 0 ≤ p.spec.count.toInt) (hw : w.Room alone p 0)
    (his : is.Perm w.members ∧ Fleet.live is < 2 ^ 31) (needed : Int32) (left : Nat) :
    Room alone p (Fleet.creatable p.spec.count needed (Fleet.ofInstances is).present).toNatClampNeg
      { w with left := left } := by
  have hpresent : (Fleet.ofInstances is).present.toInt = w.live :=
    (Fleet.toInt_present his.2).trans (congrArg Nat.cast (Fleet.live_perm his.1))
  refine ⟨hw.sees, hw.inside, fun hn => ?_⟩
  have hroom := Fleet.creatable_le needed hcount (by omega) hn
  rwa [hpresent] at hroom

theorem room_of_created {i : Instance} {n : Nat} (hw : w.Room alone p (n + 1))
    (h : (PoolCall.createInstance i).Takes w w') : w'.Room alone p n := by
  have hroom := hw.room n.succ_pos
  have hlive : w'.live ≤ w.live + 1 := by
    rcases h.live_le with hle | hle
    · omega
    · exact hle.2
  obtain ⟨name, now, members, -, rfl⟩ := h
  exact ⟨hw.sees, hw.inside, fun _ => by omega⟩

/-- A step of the script leads to where enough is known again. -/
theorem May.known (h : May s p st t dest) (hcount : 0 ≤ p.spec.count.toInt) (hw : w.Known alone p st)
    (ha : t.Answers w a w') : w'.Known alone p (dest a) := by
  cases h with
  | look ht => exact ha.eq_of_passive ht ▸ hw
  | lock =>
    cases ha
    exact ⟨hw, rfl, nofun⟩
  | unlock => trivial
  | findIngress =>
    cases a with
    | ok => exact ha.1 ▸ hw
    | error => trivial
  | listMissing =>
    cases a with
    | ok is =>
      cases ha.1
      exact room_of_listed hcount hw ha.2 _ _
    | error => trivial
  | create =>
    cases a with
    | ok => exact room_of_created hw ha.1
    | error => trivial
  | list =>
    cases a with
    | ok is =>
      obtain ⟨ht, hperm, hlive⟩ := ha
      cases ht
      refine ⟨hw, ?_⟩
      rintro rfl hstays
      refine ⟨hlive, ?_⟩
      rw [if_neg (Sees.phase hw ▸ hstays)]
      exact (Fleet.live_perm hperm).symm
    | error => trivial
  | delete hphase =>
    cases a with
    | ok =>
      obtain ⟨⟨now, rfl⟩, -⟩ := ha
      exact ⟨hw.1, fun _ hstays => absurd hphase hstays⟩
    | error => trivial
  | record => cases a <;> trivial

/-! ## Passes -/

/-- A pass over a pool takes only proper steps. -/
theorem pass_safe {b : Backoff} (hcount : 0 ≤ p.spec.count.toInt) (hw : w.Sees alone p) :
    (p.pass s b).Safe (outside alone) (PoolStep.Proper alone p.name p.spec.count)
      (fun _ _ => True) w := by
  have hsafe := (pass_follows s b p).safe_perform (fun _ => keeps_known)
    (fun hmay _ hw => hmay.proper hcount hw) (fun hmay _ _ _ hw ha => hmay.known hcount hw ha) hw
  exact hsafe.mono (fun _ _ h => h) fun _ _ _ => trivial

end Pool

end BareMetal
