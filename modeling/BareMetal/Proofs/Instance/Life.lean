import BareMetal.Proofs.Instance.Devices
import BareMetal.Proofs.Instance.Record
import BareMetal.Proofs.Instance.Script

/-!
# The life of an Instance

Passes over an Instance take only orderly steps, and fail with an internal failure only where a call
did (`Instance.reconcile_safe`): so it is with each step of the script, from what is known of the stored
Instance at its place (`Instance.Known`). Along every life the
phase then goes through its order, a recorded device stays, and nothing is recorded of an Instance
that is a member already or is being deleted (`Instance.orderly_life`).
-/

namespace BareMetal

open Instance

variable {steady : Bool} {faults : Failure → Prop} {s : Settings} {i w w' : Instance}

/-- A failure that is internal comes from the outside, in steady times. -/
def Failure.Excused (steady : Bool) (faults : Failure → Prop) (f : Failure) : Prop :=
  steady = true → ∀ context message, f = .internal context message → faults f

namespace Instance

variable {st : Place} {t : InstanceStep} {dest : t.Answer → Place} {a : t.Answer} {status : InstanceStatus}

/-! ## What is known at a place -/

/-- What a pass over the first Instance knows of the stored one at the place. -/
def Known (steady : Bool) (faults : Failure → Prop) (i : Instance) : Place → Instance → Prop
  | .opened, w | .missing _, w | .polled _, w | .reconfigured _, w | .released, w | .cleared, w =>
    Edited steady i w
  | .obtained d, w => (steady = true → d.id ≠ "") ∧ Edited steady i w
  | .ended, _ => True
  | .failed f, _ => faults f

theorem keeps_known : (outside steady faults).Keeps (Known steady faults i st) := by
  cases st with
  | opened | missing | polled | reconfigured | released | cleared => exact keeps_edited
  | obtained => exact fun _ _ hd h => ⟨h.1, keeps_edited hd h.2⟩
  | ended => exact Outside.keeps_true _
  | failed => exact fun _ _ _ h => h

/-! ## Steps -/

/-- A status of the same device can follow, in the same phase or the next one. -/
theorem follows_statusOrNew (hi : i.Recorded steady) (hphase : i.phase ≠ .empty)
    (hmanaged : i.phase ≠ .managed) (hid : status.instanceId = i.statusOrNew.instanceId)
    (hst : i.phase.next? = some status.phase ∨ status.phase = i.statusOrNew.phase) :
    status.Follows steady i := by
  obtain ⟨id, -, hne, hrecorded⟩ := hi.exists_id hphase
  refine ⟨hmanaged, ?_, id, hne, ?_, .inr hrecorded⟩
  · rw [statusOrNew_phase] at hst
    exact hst.imp_right fun h => ⟨h, hphase⟩
  · rw [hid, statusOrNew_instanceId]
    exact hrecorded

theorem WritesAt.follows (h : i.WritesAt st status) (hi : i.Recorded steady)
    (hw : Known steady faults i st w) : status.Follows steady i := by
  cases h with
  | @obtained d hphase =>
    exact ⟨by simp [hphase], .inl (by simp [hphase, InstancePhase.next?]), d.id, hw.1, rfl, .inl hphase⟩
  | pending hphase =>
    refine follows_statusOrNew hi ?_ ?_ rfl (.inr rfl)
    all_goals rcases hphase with hphase | hphase <;> simp [hphase]
  | reconfigured hphase | ready hphase | managed hphase =>
    exact follows_statusOrNew hi (by simp [hphase]) (by simp [hphase]) rfl
      (.inl (by simp [hphase, InstancePhase.next?]))

theorem WritesAt.edited (h : i.WritesAt st status) (hw : Known steady faults i st w) : Edited steady i w := by
  cases h with
  | obtained => exact hw.2
  | pending | reconfigured | ready | managed => exact hw

/-- Edits leave alone what decides which status can follow. -/
theorem Edited.follows (h : Edited steady i w) (hst : status.Follows steady i) : status.Follows steady w :=
  ⟨h.phase ▸ hst.unmanaged, h.phase ▸ hst.phase, h.phase ▸ h.recordedId? ▸ hst.device⟩

/-- A step of the script is orderly. -/
theorem May.orderly (h : i.May st t dest) (hi : i.Recorded steady) (hw : Known steady faults i st w) :
    t.Orderly steady w := by
  cases h with
  | create _ hfinalizer => exact fun hs => (hw.finalizer hs).trans hfinalizer
  | reconfigure hphase => exact hw.phase.trans hphase
  | record hstays hwrites =>
    have hedited := hwrites.edited hw
    exact ⟨hedited.follows (hwrites.follows hi hw), fun hs => (hedited.deleting hs).trans hstays⟩
  | announce | clock | getNode | addFinalizer | find | status | deleteInstance | deprovision | deleteNode
  | removeFinalizer => trivial

/-- A step of the script leads to where enough is known again. -/
theorem May.known (h : i.May st t dest) (hw : Known steady faults i st w)
    (ha : t.Answers steady faults w a w') : Known steady faults i (dest a) w' := by
  -- a call that fails does so with a fault
  have hafter {α : Type} {r : Except Failure α} {dest : α → Place} (hfailed : ∀ f, r = .error f → faults f)
      (hdest : ∀ a, r = .ok a → Known steady faults i (dest a) w') : Known steady faults i (.after dest r) w' :=
    Place.forall_after (P := fun st => Known steady faults i st w') hfailed hdest
  cases h with
  | announce | clock => exact (ha : w' = w) ▸ hw
  | getNode =>
    refine hafter (by rintro f rfl; exact ha.1) ?_
    rintro n? rfl
    exact (ha : w' = w) ▸ hw
  | addFinalizer | record | deleteInstance | removeFinalizer =>
    exact hafter (by rintro f rfl; exact ha.1) fun _ _ => trivial
  | find =>
    refine hafter (by rintro f rfl; exact ha.1) ?_
    rintro d? rfl
    obtain ⟨hnamed, rfl⟩ := ha
    cases d? with
    | none => exact hw
    | some d => exact ⟨fun hs => hnamed hs d rfl, hw⟩
  | create =>
    refine hafter (by rintro f rfl; exact ha.1) ?_
    rintro d rfl
    obtain ⟨hnamed, rfl⟩ := ha
    exact ⟨hnamed, hw⟩
  | status =>
    refine hafter (by rintro f rfl; exact ha.1) ?_
    rintro d? rfl
    obtain ⟨-, rfl⟩ := ha
    cases d? <;> exact hw
  | reconfigure | deprovision =>
    refine hafter (by rintro f rfl; exact ha.1) ?_
    rintro _ rfl
    exact ha.2 ▸ hw
  | deleteNode _ hst =>
    refine hafter (by rintro f rfl; exact ha.1) ?_
    rintro _ rfl
    rcases hst with rfl | ⟨rfl, -⟩ <;> exact (ha : w' = w) ▸ hw

/-! ## Passes -/

/-- Where a device was requested its id is on record, so that no pass fails internally by itself. -/
theorem Fails.excused {f : Failure} (h : i.Fails f st) (hi : i.Recorded steady)
    (hw : Known steady faults i st w) : f.Excused steady faults := by
  intro hs context message hf
  cases h with
  | call => exact hw
  | check hinternal => exact absurd hf (hinternal context message)
  | unrecorded hphase hid =>
    have hrequested : i.phase ≠ .empty := by rcases hphase with hphase | hphase <;> simp [hphase]
    obtain ⟨id, hid', -⟩ := hi.exists_id hrequested
    simp [hid' hs] at hid

/-- A pass over a stored Instance whose record is right takes only orderly steps, and an internal
failure in which it ends comes from the outside. -/
theorem reconcile_safe {m : InstanceMemory} (hi : i.Recorded steady) :
    ((i.reconcile s).run.run m).Safe (outside steady faults) (fun t w => t.Orderly steady w)
      (fun r _ => ∀ f, r.1 = .error f → f.Excused steady faults) i := by
  have hkeeps (st : Place) : (outside steady faults).Keeps (Known steady faults i st) := keeps_known
  have hsafe := (reconcile_follows i s m).safe_perform hkeeps
    (fun hmay _ hw => hmay.orderly hi hw) (fun hmay _ _ _ hw ha => hmay.known hw ha) (.refl i)
  refine hsafe.mono (fun _ _ h => h) ?_
  rintro r w ⟨st, hfails, hw⟩ f hf
  exact (hfails f hf).excused hi hw

/-! ## Lives -/

theorem governs_recorded : (outside steady faults).Governs Begins (Edited false)
    (fun t i => t.Orderly steady i) (fun r => ∀ f, r.1 = .error f → f.Excused steady faults)
    (Recorded steady) where
  drift _ _ hd h := h.edited hd
  edit h he := h.edited he
  call := by
    intro t i a i' h hp ha
    obtain rfl | ⟨c, rfl, halters⟩ := InstanceStep.Answers.cases ha
    · exact h
    · exact h.call hp halters
  begin := by
    rintro i p h ⟨s, m, rfl⟩
    exact reconcile_safe h

/-- One step of a run of passes. In steady times this is a step in a life; in others, the Instance can also be
deleted and its finalizers changed while a pass is made, and devices need not have ids. -/
def RunStep (steady : Bool) (faults : Failure → Prop) := (outside steady faults).EditStep Begins (Edited false)

/-- One step keeps the phase or takes it to the next one, and keeps the id of the device. -/
theorem Recorded.run_step {x y : Situation InstanceStep InstanceStep.Answer Instance
      (Except Failure Followup × InstanceMemory)} (h : x.world.Recorded steady)
    (hsafe : ∀ p, x.running = some p → p.Safe (outside steady faults) (fun t i => t.Orderly steady i)
      (fun r _ => ∀ f, r.1 = .error f → f.Excused steady faults) x.world)
    (hs : RunStep steady faults x y) :
    (y.world.phase = x.world.phase ∨ x.world.phase.next? = some y.world.phase) ∧
      ∀ id, x.world.recordedId? = some id → y.world.recordedId? = some id := by
  cases hs with
  | edit he => exact ⟨.inl he.phase, fun id hid => he.recordedId?.trans hid⟩
  | step hs =>
    cases hs with
    | drift hd => exact ⟨.inl hd.phase, fun id hid => hd.recordedId?.trans hid⟩
    | begin | stop => exact ⟨.inl rfl, fun _ hid => hid⟩
    | call ha =>
      obtain rfl | ⟨c, rfl, halters⟩ := InstanceStep.Answers.cases ha
      · exact ⟨.inl rfl, fun _ hid => hid⟩
      · have hp := (hsafe _ rfl).permitted
        exact ⟨phase_call hp halters, fun _ hid => h.recordedId?_call hp halters hid⟩

/-- Passes are made on the stored Instance, which has no status at first, one at a time and can be dropped
anywhere, calls are answered in any way or fail with or without having taken effect, and others edit the
Instance at any time as they like, but for its name and its status: every change of the phase goes to the next
one, and a recorded device stays on record. -/
theorem phases_in_order (hi : i.status = none)
    {x : Situation InstanceStep InstanceStep.Answer Instance (Except Failure Followup × InstanceMemory)}
    (hr : Relation.ReflTransGen (RunStep steady faults) ⟨i, none⟩ x) :
    (∀ y, RunStep steady faults x y →
      y.world.phase = x.world.phase ∨ x.world.phase.next? = some y.world.phase) ∧
    ∀ y id, Relation.ReflTransGen (RunStep steady faults) x y →
      x.world.recordedId? = some id → y.world.recordedId? = some id := by
  have hrun {y : Situation InstanceStep InstanceStep.Answer Instance (Except Failure Followup × InstanceMemory)}
      (hy : Relation.ReflTransGen (RunStep steady faults) ⟨i, none⟩ y) :=
    governs_recorded.run hy (.new hi) rfl
  refine ⟨fun y hs => ((hrun hr).1.run_step (hrun hr).2 hs).1, fun y id hxy hid => ?_⟩
  -- step by step along the run, where each step is taken from a situation that is orderly
  induction hxy with
  | refl => exact hid
  | tail hxz hzy ih =>
    obtain ⟨hz, hsafe⟩ := hrun (hr.trans hxz)
    exact (hz.run_step hsafe hzy).2 id ih

/-- The life of an Instance without status: passes are made on the stored Instance one at a time and
can be dropped anywhere, calls are answered in any way or fail with the given faults, with or without
having taken effect, and others edit the Instance as they like, but for its name and its status, and
while a pass is made, the finalizer and the mark of deletion. Every change of the phase goes to the
next one; a recorded device stays on record; no status is written of an Instance that is a member or
being deleted; no device is asked for while the finalizer is missing; and no pass ends in an internal
failure but one that a call failed with. -/
theorem orderly_life (hi : i.status = none)
    {x : Situation InstanceStep InstanceStep.Answer Instance (Except Failure Followup × InstanceMemory)}
    (hr : Lives faults ⟨i, none⟩ x) :
    (∀ y, LifeStep faults x y →
      y.world.phase = x.world.phase ∨ x.world.phase.next? = some y.world.phase) ∧
    (∀ y id, Lives faults x y → x.world.recordedId? = some id → y.world.recordedId? = some id) ∧
    (∀ n st, x.Sends (.cluster (.writeStatus n st)) →
      x.world.phase ≠ .managed ∧ x.world.isDeleting = false) ∧
    (∀ c j, x.Sends (.device (.create c j)) → x.world.metadata.hasFinalizer Names.deprovision = true) ∧
    ∀ context message m, x.running = some (.done (.error (.internal context message), m)) →
      faults (.internal context message) := by
  have hrun : Relation.ReflTransGen (RunStep true faults) ⟨i, none⟩ x := hr
  obtain ⟨hphase, hdevice⟩ := phases_in_order hi hrun
  obtain ⟨-, hsafe⟩ := governs_recorded.run hr (.new hi) rfl
  have hsent {t : InstanceStep} (ht : x.Sends t) : t.Orderly true x.world := by
    obtain ⟨next, hnext⟩ := ht
    exact (hsafe _ hnext).permitted
  refine ⟨hphase, hdevice, fun n st ht => ?_, fun c j ht => hsent ht rfl, fun context message m hm => ?_⟩
  · obtain ⟨hfollows, hstays⟩ := hsent ht
    exact ⟨hfollows.unmanaged, hstays rfl⟩
  · exact hsafe _ hm _ rfl rfl context message rfl

end Instance

/-! ## A life that requests a device -/

/-- Answers of a service that has no device but makes one, and of a cluster without Nodes. -/
def InstanceStep.firstAnswer : (t : InstanceStep) → t.Answer
  | .cluster (.getNode _) => .ok none
  | .cluster (.writeStatus ..) | .cluster (.addFinalizer _) | .cluster (.removeFinalizer _)
  | .cluster (.deleteInstance _) | .cluster (.deleteNode _) => .ok ()
  | .device (.find ..) | .device (.status ..) => .ok none
  | .device (.create ..) => .ok { id := "device-1", state := .queued }
  | .device (.reconfigure ..) | .device (.delete ..) => .ok ()
  | .announce _ => ()
  | .clock => .epoch

/-- The device is made, and about to be recorded. -/
def Instance.requested :
    Program InstanceStep InstanceStep.Answer (Except Failure Followup × InstanceMemory) :=
  (((Instance.fresh.reconcile .standard).run.run {}).rest InstanceStep.firstAnswer).rest
    InstanceStep.firstAnswer

theorem lives_requested : Lives faults ⟨Instance.fresh, none⟩ ⟨Instance.fresh, some Instance.requested⟩ := by
  have hbegin : (outside true faults).Reaches Begins ⟨Instance.fresh, none⟩
      ⟨Instance.fresh, some ((Instance.fresh.reconcile .standard).run.run {})⟩ :=
    .single (.begin ⟨.standard, {}, rfl⟩)
  have hfind : Program.first? ((Instance.fresh.reconcile .standard).run.run {}) =
      some (.device (.find ⟨"secret", "lab"⟩ "metal-1")) := rfl
  have hcreate : (((Instance.fresh.reconcile .standard).run.run {}).rest InstanceStep.firstAnswer).first? =
      some (.device (.create ⟨"secret", "lab"⟩ Instance.fresh)) := rfl
  have hfound : (outside true faults).Reaches Begins ⟨Instance.fresh, none⟩
      ⟨Instance.fresh, some (((Instance.fresh.reconcile .standard).run.run {}).rest InstanceStep.firstAnswer)⟩ :=
    hbegin.answer hfind ⟨nofun, rfl⟩
  have hid : "device-1" ≠ "" := by decide
  have hmade : (outside true faults).Reaches Begins ⟨Instance.fresh, none⟩
      ⟨Instance.fresh, some Instance.requested⟩ := hfound.answer hcreate ⟨fun _ => hid, rfl⟩
  exact hmade.lift id fun _ _ hs => Outside.EditStep.step hs

/-- The first status is written of an Instance that is no member and is not being deleted. -/
theorem Instance.orderly_life_fresh : ∃ x : Situation InstanceStep InstanceStep.Answer Instance
      (Except Failure Followup × InstanceMemory),
    Lives (fun _ => False) ⟨Instance.fresh, none⟩ x ∧
      x.Sends (.cluster (.writeStatus "metal-1"
        { phase := .submitted, instanceId := some "device-1", deviceState := some "queued" })) ∧
      x.world.phase ≠ .managed ∧ x.world.isDeleting = false := by
  have hsends : Situation.Sends ⟨Instance.fresh, some Instance.requested⟩ (.cluster (.writeStatus "metal-1"
      { phase := .submitted, instanceId := some "device-1", deviceState := some "queued" })) :=
    Situation.sends_of_first? rfl
  have hlives : Lives (fun _ => False) ⟨Instance.fresh, none⟩ ⟨Instance.fresh, some Instance.requested⟩ :=
    lives_requested
  obtain ⟨-, -, hwrites, -⟩ := Instance.orderly_life rfl hlives
  exact ⟨_, hlives, hsends, hwrites _ _ hsends⟩

end BareMetal
