import BareMetal.Proofs.Pool.Conduct

/-!
# Removing members

How many members a pool has while it removes some. The excess on record is the one that was counted,
and every member that goes from then on is one less: so a removal takes the pool below the wanted
count exactly if as many members went since the count as there were too many then. That can be,
because a pass that is cut short leaves the excess on record.
-/

namespace BareMetal

open PoolSite

variable {name : String} {count : Int32} {w w' : PoolSite}

/-- The excess on record is the counted one: what is there together with what went since. -/
structure PoolSite.Tallied (name : String) (count : Int32) (w : PoolSite) : Prop where
  named : w.object.name = name
  wanted : w.object.spec.count = count
  excess : w.object.phase = .cleanupNodes →
    (w.live + w.left : Int) = count.toInt - w.object.statusOrNew.needed.toInt

theorem PoolSite.Tallied.drift (h : w.Tallied name count) (hd : Drifts true w w') :
    w'.Tallied name count where
  named := hd.name.trans h.named
  wanted := hd.count.trans h.wanted
  excess hphase := by
    rw [Pool.phase, hd.status] at hphase
    have htally := hd.tally
    have hexcess := h.excess hphase
    rw [Pool.statusOrNew, hd.status]
    rw [Pool.statusOrNew] at hexcess
    omega

theorem PoolSite.Tallied.call {c : PoolCall} (h : w.Tallied name count)
    (hp : PoolStep.Proper true name count (.cluster c) w)
    (ht : c.Takes w w') : w'.Tallied name count := by
  cases c with
  | writeStatus n st =>
    cases ht
    exact ⟨h.named, h.wanted, hp rfl⟩
  | listInstances n =>
    cases ht
    refine ⟨h.named, h.wanted, fun hphase => ?_⟩
    have hphase : w.object.phase = .cleanupNodes := hphase
    show (w.live + (if w.object.phase = .cleanupNodes then w.left else 0 : Nat) : Int) = _
    rw [if_pos hphase]
    exact h.excess hphase
  | createInstance i =>
    obtain ⟨-, -, hphase⟩ := hp
    obtain ⟨name, now, members, -, rfl⟩ := ht
    refine ⟨h.named, h.wanted, fun hcleanup => ?_⟩
    simp [hphase rfl] at hcleanup
  | deleteInstance n =>
    obtain ⟨now, rfl⟩ := ht
    refine ⟨h.named, h.wanted, fun hphase => ?_⟩
    have hexcess := h.excess hphase
    have := shed_tally (PoolCall.live_deleted_le w n now)
    show _ = count.toInt - w.object.statusOrNew.needed.toInt
    omega
  | getSecret | listControlPlane | getService => exact ht ▸ h

theorem PoolSite.Tallied.step {t : PoolStep} {a : t.Answer} (h : w.Tallied name count)
    (hp : t.Proper true name count w) (ha : t.Answers w a w') :
    w'.Tallied name count := by
  cases t with
  | cluster c =>
    cases a with
    | ok a => exact h.call hp ha.1
    | error =>
      rcases ha with rfl | ht
      · exact h
      · exact h.call hp ht
  | lock | unlock =>
    cases ha
    exact ⟨h.named, h.wanted, h.excess⟩
  | announce | draw | readBootstrap => exact ha ▸ h

theorem PoolSite.upholds_tallied (h0 : 0 ≤ count.toInt) :
    (outside true).Upholds Begins (PoolStep.Proper true name count) (Tallied name count) where
  drift _ _ hd h := h.drift hd
  call h hp ha := h.step hp ha
  begin := by
    rintro w p h ⟨s, b, rfl⟩
    have hcount : 0 ≤ w.object.spec.count.toInt := by rwa [h.wanted]
    have hsafe : (w.object.pass s b).Safe (outside true)
        (PoolStep.Proper true w.object.name w.object.spec.count) (fun _ _ => True) w :=
      Pool.pass_safe hcount fun _ => rfl
    rwa [h.named, h.wanted] at hsafe

/-- Along every run of passes over a pool that starts without status and whose wanted count stays,
calls may fail with or without having taken effect, passes may be dropped anywhere, and members may
go at any time: when a member is about to be deleted, no more than the wanted ones are there exactly
if at least as many went since the pool was last counted as are on record to be too many. -/
theorem Pool.removal_below_count {p : Pool} (hnew : p.status = none) (hcount : 0 ≤ p.spec.count)
    {members : List Instance} {n : String}
    {y : Situation PoolStep PoolStep.Answer PoolSite (Except Failure Followup × Backoff)}
    (hr : PoolSite.Reaches ⟨⟨p, members, 0, false⟩, none⟩ y)
    (hy : y.Sends (.cluster (.deleteInstance n))) :
    (y.world.live : Int) ≤ p.spec.count.toInt ↔
      -y.world.object.statusOrNew.needed.toInt ≤ y.world.left := by
  have hupholds : (outside true).Upholds Begins (PoolStep.Proper true p.name p.spec.count)
      (Tallied p.name p.spec.count) := upholds_tallied (Int32.le_iff_toInt_le.1 hcount)
  have hstart : Tallied p.name p.spec.count ⟨p, members, 0, false⟩ :=
    ⟨rfl, rfl, fun hphase => by simp [Pool.phase, hnew] at hphase⟩
  have hphase := hupholds.permitted hr hstart rfl hy rfl
  have hexcess := (hupholds.run hr hstart rfl).1.excess hphase
  omega

/-! ## A run that removes too many -/

/-- A pass over the stored pool, with the join token set. -/
def PoolSite.pass (w : PoolSite) :
    Program PoolStep PoolStep.Answer (Except Failure Followup × Backoff) :=
  w.object.pass { Settings.standard with joinToken := some "join" } ∅

theorem PoolSite.reaches_serve (n : Nat) (w : PoolSite) :
    Reaches ⟨w, none⟩ ⟨(w.pass.follow serve n w).2, some (w.pass.follow serve n w).1⟩ := by
  have hbegin : Reaches ⟨w, none⟩ ⟨w, some w.pass⟩ := .single (.begin ⟨_, _, rfl⟩)
  exact hbegin.trans (Outside.reaches_follow (o := outside true) answers_serve n w.pass w)

/-- The site after one pass of up to eight calls. -/
def PoolSite.afterPass (w : PoolSite) : PoolSite := (w.pass.follow serve 8 w).2

theorem PoolSite.reaches_afterPass (w : PoolSite) : Reaches ⟨w, none⟩ ⟨w.afterPass, none⟩ :=
  (reaches_serve 8 w).tail .stop

/-- A pool that wants one member. -/
def Pool.single : Pool where
  metadata := { name := some "workers" }
  spec := { count := 1, plan := "c3.small" }

/-- The pool with two members, before the first pass. -/
def PoolSite.crowded : PoolSite where
  object := Pool.single
  members := ["workers-a", "workers-b"].map fun name => { metadata := { name := some name } }

/-- The pool has turned to removing a member, and one has vanished. -/
def PoolSite.thinned : PoolSite :=
  crowded.afterPass.afterPass.afterPass.shed [{ metadata := { name := some "workers-a" } }]

/-- The next pass lists the member that is left, and is about to delete it. -/
theorem reaches_thinned : ∃ p, PoolSite.Reaches ⟨crowded, none⟩ ⟨thinned, some p⟩ ∧
    p.first? = some (.cluster (.deleteInstance "workers-a")) := by
  have hcounted : PoolSite.Reaches ⟨crowded, none⟩ ⟨crowded.afterPass.afterPass.afterPass, none⟩ :=
    ((reaches_afterPass _).trans (reaches_afterPass _)).trans (reaches_afterPass _)
  have hthinned : PoolSite.Reaches ⟨crowded, none⟩ ⟨thinned, none⟩ :=
    hcounted.tail (.drift (.leave (by decide)))
  have hdelete : (thinned.pass.follow serve 1 thinned).1.first? =
      some (.cluster (.deleteInstance "workers-a")) := by with_unfolding_all rfl
  exact ⟨_, hthinned.trans (reaches_serve 1 thinned), hdelete⟩

/-- A run deletes a member of a pool that wants one and has one. -/
theorem Pool.removes_wanted :
    ∃ y : Situation PoolStep PoolStep.Answer PoolSite (Except Failure Followup × Backoff),
      PoolSite.Reaches ⟨crowded, none⟩ y ∧ y.Sends (.cluster (.deleteInstance "workers-a")) ∧
      (y.world.live : Int) ≤ Pool.single.spec.count.toInt := by
  obtain ⟨p, hr, hp⟩ := reaches_thinned
  have hlive : (thinned.live : Int) ≤ Pool.single.spec.count.toInt := by decide
  exact ⟨_, hr, Situation.sends_of_first? hp, hlive⟩

/-- In that run one member went, and one was on record to be too many. -/
theorem Pool.removal_below_count_single :
    ∃ y : Situation PoolStep PoolStep.Answer PoolSite (Except Failure Followup × Backoff),
      PoolSite.Reaches ⟨crowded, none⟩ y ∧ y.Sends (.cluster (.deleteInstance "workers-a")) ∧
      ((y.world.live : Int) ≤ Pool.single.spec.count.toInt ↔
        -y.world.object.statusOrNew.needed.toInt ≤ y.world.left) := by
  obtain ⟨p, hr, hp⟩ := reaches_thinned
  have hsends := Situation.sends_of_first? (w := thinned) hp
  exact ⟨_, hr, hsends, Pool.removal_below_count rfl (by decide) hr hsends⟩

end BareMetal
