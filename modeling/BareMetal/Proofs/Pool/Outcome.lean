import BareMetal.Proofs.Pool.Surroundings

/-!
# Passes that succeed

In helpful surroundings every pass over a pool succeeds, and what it makes of the status and the
members is known exactly: one lemma for each function, and for a round the place where its pass
ends (`PoolScene.round_eq`).
-/

namespace BareMetal

open PoolPass

/-- Reasoning about passes in helpful surroundings. -/
abbrev Surroundings.logic {p : Pool} (e : Surroundings p) (permit : PoolStep → Prop) :
    Logic PoolSteps PoolScene :=
  (Logic.ofProgram (.serving (PoolScene.serve e)) (fun t _ => permit t) Program.perform).withMemory Backoff

/-- A valid spec wants no negative number of members. -/
theorem Pool.Viable.count_nonneg {p : Pool} (h : p.Viable) : 0 ≤ p.spec.count.toInt :=
  Int32.le_iff_toInt_le.1 (PoolSpec.validate_eq_ok_iff.1 h.valid).1

namespace PoolScene

variable {p : Pool} {e : Surroundings p} {w w' : PoolScene} {permit : PoolStep → Prop}

/-! ## Steps -/

theorem wp_step {t : PoolStep} {Q : t.Answer → PoolScene → Prop} (ht : permit t)
    (hQ : Q (serve e t w).1 (serve e t w).2) : (e.logic permit).wp (PoolPass.step t) Q w := by
  refine Logic.wp_perform (Program.safe_perform (P := (· = w)) (Outside.keeps_serving _)
    (fun _ _ => ht) ?_ rfl)
  rintro v a v' rfl ha
  rw [show serve e t v = (a, v') from ha] at hQ
  exact hQ

theorem yields_cluster {c : PoolCall} {a : c.Result} (hc : permit (.cluster c))
    (hserve : serve e (.cluster c) w = (.ok a, w')) :
    (e.logic permit).Yields (cluster c) w a w' :=
  Logic.yields_iff.2 (wp_step hc ⟨congrArg Prod.fst hserve, congrArg Prod.snd hserve⟩)

theorem yields_step {t : PoolStep} (ht : permit t) : (e.logic permit).Yields
    (ExceptT.lift (PoolPass.step t) : PoolPass t.Answer) w (serve e t w).1 (serve e t w).2 :=
  Logic.yields_lift (wp_step ht ⟨rfl, rfl⟩)

/-- From the first scene, a part of a pass ends with the result in the second. -/
abbrev Ends (e : Surroundings p) {α : Type} (x : PoolPass α) (w : PoolScene) (a : α) (w' : PoolScene) :
    Prop :=
  (e.logic fun _ => True).Yields x w a w'

theorem ends_record (q : Pool) (st : PoolStatus) : Ends e (q.record st) w () (w.report st) :=
  yields_cluster trivial rfl

theorem ends_tell (ev : Event) : Ends e (announce ev) w () w := yields_step trivial

/-- Something may be announced before the rest. -/
theorem Ends.tellIf {α : Type} {c : Prop} [Decidable c] {ev : Event} {k : Unit → PoolPass α} {a : α}
    (h : Ends e (k ()) w a w') : Ends e (if c then announce ev >>= k else k ()) w a w' := by
  split
  · exact (ends_tell ev).bind h
  · exact h

/-! ## What is at hand -/

theorem exists_ends_resolveToken (e : Surroundings p) (w : PoolScene) :
    ∃ t, Ends e e.settings.resolveToken w t w := by
  obtain ⟨t, ht, hne⟩ := e.token
  have hfilter : e.settings.joinToken.filter (· ≠ "") = some t := by simp [ht, hne]
  unfold Settings.resolveToken
  rw [hfilter]
  exact ⟨t, Logic.yields_pure⟩

theorem exists_ends_resolveCredentials (e : Surroundings p) (w : PoolScene) :
    ∃ c, Ends e e.settings.resolveCredentials w c w := by
  obtain ⟨c, hc⟩ := e.credentials
  exact ⟨c, (yields_cluster trivial rfl).bind (Logic.yields_check hc)⟩

theorem exists_ends_resolveAddress (e : Surroundings p) (w : PoolScene) :
    ∃ a, Ends e e.settings.resolveAddress w a w := by
  obtain ⟨a, ha⟩ := e.address
  refine ⟨a, (yields_cluster trivial rfl).bind ?_⟩
  dsimp only
  rw [ha]
  exact Logic.yields_pure

/-! ## Functions -/

theorem exists_yields_list (hw : w.Tidy p) (hlist : permit (.cluster (.listInstances p.name))) :
    ∃ is, (e.logic permit).Yields (cluster (.listInstances w.object.name)) w is w ∧
      Fleet.ofInstances is = w.fleet ∧ is.Perm w.members := by
  rw [hw.name]
  exact ⟨_, yields_cluster hlist rfl, Fleet.ofInstances_perm hw.perm_listed, hw.perm_listed⟩

/-- Preparing asks for all Instances. -/
theorem exists_ends_prepare (e : Surroundings p) (hp : p.Viable) (hw : w.Tidy p) : ∃ f t,
    Ends e (w.object.prepare e.settings) w f
      (w.report ⟨.tokenReady, 0, p.spec.count, p.spec.count, some t⟩) := by
  obtain ⟨t, ht⟩ := exists_ends_resolveToken e w
  refine ⟨.after Pool.stepWait, t, ?_⟩
  unfold Pool.prepare
  rw [hw.spec, hp.valid]
  exact ht.bind ((ends_record _ _).bind Logic.yields_pure)

/-- Creating makes the fleet larger by as many Instances, up to the wanted count. -/
theorem exists_ends_createInstances (e : Surroundings p) (hp : p.Viable) (m : JoinMaterial) (n : Nat)
    (hw : w.Tidy p) (hroom : 0 < n → (w.members.length + n : Int) ≤ p.spec.count.toInt) : ∃ members,
    Ends e (w.object.createInstances e.settings m n) w () (w.populate members) ∧
      (w.populate members).Tidy p ∧ members.length = w.members.length + n := by
  induction n generalizing w with
  | zero => exact ⟨w.members, Logic.yields_pure, hw, rfl⟩
  | succ n ih =>
    have hroom := hroom n.succ_pos
    obtain ⟨i, hi⟩ := hw.synthesize hp m e.settings (e.draw w.members)
    have hcons : (w.populate (i.storedAs i.name e.now :: w.members)).Tidy p := hw.cons hi (by omega)
    obtain ⟨members, hends, htidy, hlen⟩ := ih hcons fun _ => by
      show ((i.storedAs i.name e.now :: w.members).length + n : Int) ≤ _
      rw [List.length_cons]
      omega
    refine ⟨members, ?_, htidy, ?_⟩
    · exact (yields_step trivial).bind ((Logic.yields_check hi).bind ((yields_cluster trivial rfl).bind hends))
    · rw [hlen]
      show w.members.length + 1 + n = _
      omega

/-- The number of Instances that a pass creates. -/
def missing (w : PoolScene) : Nat :=
  (Fleet.creatable w.object.spec.count w.object.statusOrNew.needed w.fleet.present).toNatClampNeg

theorem Tidy.missing_eq (h : w.Tidy p) (hp : p.Viable) : (w.missing : Int) =
    max (min w.object.statusOrNew.needed.toInt (p.spec.count.toInt - w.members.length)) 0 := by
  unfold missing
  rw [Fleet.toNatClampNeg_creatable _ (h.spec ▸ hp.count_nonneg) (h.toInt_present ▸ Int.natCast_nonneg _),
    h.toInt_present, h.spec]

/-- With all that they need at hand, the missing Instances are created, and recorded. -/
theorem ends_fill {m : JoinMaterial} {members : List Instance} (hw : w.Tidy p)
    (hcreate : Ends e (w.object.createInstances e.settings m w.missing) w () (w.populate members)) :
    Ends e (do
        let fleet := Fleet.ofInstances (← cluster (.listInstances w.object.name))
        let missing := Fleet.creatable w.object.spec.count w.object.statusOrNew.needed fleet.present
        w.object.createInstances e.settings m missing.toNatClampNeg
        w.object.record { w.object.statusOrNew with
          phase := .submitted, requested := w.object.spec.count, needed := 0, token := some m.token }
        if missing > 0 then
          announce { reason := .poolScaledUp, activity := .scale
                     note := s!"created {missing.toInt} instances" }
        return Followup.after e.settings.pollInterval) w (.after e.settings.pollInterval)
      ((w.populate members).report { w.object.statusOrNew with
        phase := .submitted, requested := w.object.spec.count, needed := 0, token := some m.token }) := by
  obtain ⟨is, hlist, hfleet, -⟩ : ∃ is, Ends e _ w is w ∧ _ := exists_yields_list hw trivial
  refine hlist.bind ?_
  dsimp only
  rw [hfleet]
  exact hcreate.bind (Logic.Yields.bind (ends_record _ _) (Ends.tellIf Logic.yields_pure))

/-- Submitting makes the missing Instances. -/
theorem exists_ends_submit (e : Surroundings p) (hp : p.Viable) (hw : w.Tidy p) :
    ∃ f t members, Ends e (w.object.submit e.settings) w f ((w.populate members).report
        { w.object.statusOrNew with
          phase := .submitted, requested := p.spec.count, needed := 0, token := some t }) ∧
      (w.populate members).Tidy p ∧ members.length = w.members.length + w.missing := by
  have hmissing := hw.missing_eq hp
  obtain ⟨c, hc⟩ := exists_ends_resolveCredentials e w
  obtain ⟨a, ha⟩ := exists_ends_resolveAddress e w
  obtain ⟨t, ht⟩ : ∃ t, w.object.status.bind (·.token) = some t ∨
      w.object.status.bind (·.token) = none ∧ Ends e e.settings.resolveToken w t w := by
    cases htoken : w.object.status.bind (·.token) with
    | some t => exact ⟨t, .inl rfl⟩
    | none =>
      obtain ⟨t, ht⟩ := exists_ends_resolveToken e w
      exact ⟨t, .inr ⟨rfl, ht⟩⟩
  obtain ⟨members, hcreate, htidy, hlen⟩ :=
    exists_ends_createInstances e hp ⟨c, t, a⟩ w.missing hw fun _ => by omega
  have hfill := ends_fill hw hcreate
  have hlocked : Ends e (w.object.submitLocked e.settings) w (.after e.settings.pollInterval)
      ((w.populate members).report { w.object.statusOrNew with
        phase := .submitted, requested := w.object.spec.count, needed := 0, token := some t }) := by
    unfold Pool.submitLocked
    refine hc.bind ?_
    refine Logic.Yields.bind (yields_cluster trivial rfl) ?_
    refine Ends.tellIf ?_
    refine ha.bind ?_
    rcases ht with htoken | ⟨htoken, ht⟩
    · rw [htoken]
      exact hfill
    · rw [htoken]
      exact ht.bind hfill
  refine ⟨.after e.settings.pollInterval, t, members, ?_, htidy, hlen⟩
  rw [← hw.spec]
  unfold Pool.submit PoolPass.locked
  refine Logic.Yields.bind (yields_step trivial) ?_
  refine hlocked.attempt.bind ?_
  exact Logic.Yields.bind (yields_step trivial) (Logic.yields_check rfl)

/-- The status after a look at the fleet. -/
def seen (w : PoolScene) : PoolStatus := w.object.statusOrNew.settle w.object.spec.count w.fleet

/-- To write the status that is there changes nothing. -/
theorem report_eq_self {st : PoolStatus} (h : w.object.status = some st) : w.report st = w := by
  have hover : st.over (some st) = st := by
    obtain ⟨_, _, _, _, token⟩ := st
    cases token <;> rfl
  unfold report
  rw [h, hover, ← h]

/-- Looking at the fleet records what is seen, if that is new. -/
theorem exists_ends_observe (hw : w.Tidy p) (hst : w.object.status ≠ none) :
    ∃ f, Ends e (w.object.observe e.settings) w f (w.report w.seen) := by
  obtain ⟨is, hlist, hfleet, -⟩ : ∃ is, Ends e _ w is w ∧ _ := exists_yields_list hw trivial
  -- what is seen is recorded, unless it is on record already
  have hrecord {x : PoolPass Followup} (hx : ∃ f, Ends e x (w.report w.seen) f (w.report w.seen)) :
      ∃ f, Ends e (if w.seen = w.object.statusOrNew then x else do w.object.record w.seen; x) w f
        (w.report w.seen) := by
    obtain ⟨f, hx⟩ := hx
    refine ⟨f, ?_⟩
    split
    · next hsame =>
      have hstay : w.report w.seen = w := by
        obtain ⟨st, hst⟩ := Option.ne_none_iff_exists'.1 hst
        refine report_eq_self (hst.trans ?_)
        rw [hsame, Pool.statusOrNew, hst]
        rfl
      rw [hstay] at hx ⊢
      exact hx
    · exact (ends_record _ _).bind hx
  refine Exists.imp (fun f hf => hlist.bind hf) ?_
  dsimp only
  rw [hfleet]
  refine hrecord ?_
  split
  · split
    · exact ⟨_, Logic.yields_pure⟩
    · exact ⟨_, (ends_tell _).bind Logic.yields_pure⟩
  all_goals exact ⟨_, Logic.yields_pure⟩

theorem ends_deleteInstances (names : List String) : Ends e (Pool.deleteInstances names) w ()
    (w.populate (w.members.filter (·.name ∉ names))) := by
  induction names generalizing w with
  | nil =>
    have hall : w.members.filter (fun i => i.name ∉ ([] : List String)) = w.members := by simp
    rw [hall]
    exact Logic.yields_pure
  | cons name rest ih =>
    -- the names are taken from the members one after another
    have hboth : w.members.filter (fun i => i.name ∉ name :: rest) =
        (w.members.filter (·.name ≠ name)).filter (·.name ∉ rest) := by
      rw [List.filter_filter]
      refine List.filter_congr fun i _ => ?_
      simp [Bool.and_comm]
    rw [hboth]
    exact (yields_cluster trivial rfl).bind (ih (w := w.populate (w.members.filter (·.name ≠ name))))

/-- What is left of the members after removing the surplus on record. -/
theorem exists_ends_shrink (e : Surroundings p) (hw : w.Tidy p) : ∃ f members,
    Ends e w.object.shrink w f ((w.populate members).report
      (w.object.statusOrNew.afterRemovals (.ofNat (w.members.length - members.length)))) ∧
    members.Sublist w.members ∧
    members.length = w.members.length - (max (-w.object.statusOrNew.needed) 0).toNatClampNeg := by
  obtain ⟨is, hlist, -, hperm⟩ : ∃ is, Ends e _ w is w ∧ _ := exists_yields_list hw trivial
  generalize hn : (max (-w.object.statusOrNew.needed) 0).toNatClampNeg = n
  have hstay : is.filter (!·.isDeleting) = is :=
    List.filter_eq_self.2 fun i hi => by simp [hw.stay i (hperm.subset hi)]
  have hsorted : (is.mergeSort Fleet.removedBefore).Perm w.members := (List.mergeSort_perm _ _).trans hperm
  have hvictims : Fleet.removalCandidates is (-w.object.statusOrNew.needed) =
      ((is.mergeSort Fleet.removedBefore).take n).map (·.name) := by
    rw [Fleet.removalCandidates, hstay, hn]
  generalize hvs : ((is.mergeSort Fleet.removedBefore).take n).map (·.name) = victims at hvictims
  have hlen : (w.members.filter (·.name ∉ victims)).length = w.members.length - n :=
    hvs ▸ length_filter_not_mem_take hsorted hw.names n
  have hgone : victims.length = w.members.length - (w.members.filter (·.name ∉ victims)).length := by
    rw [hlen, ← hvs, List.length_map, List.length_take, hsorted.length_eq]
    omega
  refine ⟨.after Pool.stepWait, w.members.filter (·.name ∉ victims), ?_, List.filter_sublist, hlen⟩
  unfold Pool.shrink
  refine hlist.bind ?_
  dsimp only
  rw [hvictims, ← hgone]
  refine (ends_deleteInstances victims).bind ?_
  refine Logic.Yields.bind (ends_record _ _) ?_
  split
  · exact Logic.yields_pure
  · exact (ends_tell _).bind Logic.yields_pure

/-! ## Passes -/

/-- A pass that succeeds ends where its work does. -/
theorem yields_reconcile {f : Followup} (hstays : w.object.metadata.isDeleting = false)
    (h : (e.logic permit).Yields (w.object.advance e.settings) w f w') :
    (e.logic permit).Yields (w.object.reconcile e.settings) w f w' := by
  have hreset : (e.logic permit).Yields
      (ExceptT.lift (modify fun b => b.reset w.object.name) : PoolPass Unit) w' () w' :=
    Logic.yields_lift (Logic.wp_modify ⟨rfl, rfl⟩)
  unfold Pool.reconcile
  rw [hstays]
  exact h.attempt.bind (hreset.bind Logic.yields_pure)

/-- A round ends where the pass does, made after all machines have joined, and takes its steps. -/
theorem round_eq {f : Followup} (hp : p.Viable) (hw : w.Tidy p)
    (h : (e.logic permit).Yields ((w.join e).object.advance e.settings) (w.join e) f w') :
    w.round e = w' ∧ ∀ t ∈ w.steps e, permit t := by
  have hstays : (w.join e).object.metadata.isDeleting = false := hw.metadata ▸ hp.stays
  have hsafe := Logic.yields_iff.1 (yields_reconcile hstays h) e.memory
  simp only [Logic.ofProgram, Program.lower_perform] at hsafe
  exact ⟨hsafe.play.2, hsafe.calls⟩

end PoolScene

end BareMetal
