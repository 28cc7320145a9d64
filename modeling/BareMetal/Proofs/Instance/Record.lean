import BareMetal.Proofs.Instance.Site

/-!
# The record of an Instance

Passes over one Instance as they meet the stored Instance alone: whatever the service answers, and
whichever calls fail, with or without having taken effect. Said here is which steps are orderly,
and what orderly steps make of the record: the phase, and the id of the device. Some of it holds in
steady times only, when all devices have ids and nobody else touches the finalizer or the mark of
deletion while a pass is made.
-/

namespace BareMetal

/-! ## The stored Instance -/

/-- The call takes the first stored Instance to the second. -/
def InstanceCall.Alters (i i' : Instance) : InstanceCall → Prop
  | .writeStatus _ st => i' = { i with status := some (st.over i.status) }
  | .addFinalizer _ =>
    let m := i.metadata
    i' = { i with metadata := { m with finalizers := m.finalizersWith? Names.deprovision <|> m.finalizers } }
  | .removeFinalizer _ =>
    let m := i.metadata
    i' = { i with metadata := { m with finalizers := some (m.finalizersWithout Names.deprovision) } }
  | .deleteInstance _ => ∃ t, i' = { i with metadata := { i.metadata with deletionTimestamp := some t } }
  | .getNode _ | .deleteNode _ => i' = i

/-- A device that is found or made has an id. -/
def DeviceCall.Named : (c : DeviceCall) → c.Result → Prop
  | .find .., d? => ∀ d, d? = some d → d.id ≠ ""
  | .create .., d => d.id ≠ ""
  | .status .., _ | .reconfigure .., _ | .delete .., _ => True

/-- The step, made on the first stored Instance, can be answered so and leave the second. Calls
fail with the given faults, and in steady times devices have ids. -/
def InstanceStep.Answers (steady : Bool) (faults : Failure → Prop) (i : Instance) :
    (t : InstanceStep) → t.Answer → Instance → Prop
  | .cluster c, .ok _, i' => c.Alters i i'
  | .cluster c, .error f, i' => faults f ∧ (i' = i ∨ c.Alters i i')
  | .device c, .ok a, i' => (steady = true → c.Named a) ∧ i' = i
  | .device _, .error f, i' => faults f ∧ i' = i
  | .announce _, _, i' | .clock, _, i' => i' = i

namespace Instance

/-- The id of the device on record. -/
def recordedId? (i : Instance) : Option String := i.status.bind (·.instanceId)

/-- The Instance was edited by others, who leave its name and status alone, and in steady times the
finalizer and the mark of deletion as well. -/
structure Edited (steady : Bool) (i i' : Instance) : Prop where
  name : i'.name = i.name
  status : i'.status = i.status
  deleting : steady = true → i'.isDeleting = i.isDeleting
  finalizer : steady = true →
    i'.metadata.hasFinalizer Names.deprovision = i.metadata.hasFinalizer Names.deprovision

/-- What passes meet of the stored Instance. -/
def outside (steady : Bool) (faults : Failure → Prop) :
    Outside InstanceStep InstanceStep.Answer Instance where
  answers t i := t.Answers steady faults i
  drifts := Edited steady

/-- A pass begins on the stored Instance, with any settings and any memory. -/
def Begins (i : Instance)
    (p : Program InstanceStep InstanceStep.Answer (Except Failure Followup × InstanceMemory)) : Prop :=
  ∃ s m, p = (i.reconcile s).run.run m

/-- One step in the life of an Instance. Others delete it and change its finalizers only while no
pass is made. -/
def LifeStep (faults : Failure → Prop) :=
  (outside true faults).EditStep Begins (Edited false)

/-- A life leads from the first situation to the second. -/
def Lives (faults : Failure → Prop) := Relation.ReflTransGen (LifeStep faults)

variable {steady : Bool} {i i' i'' : Instance}

theorem Edited.refl (i : Instance) : Edited steady i i := ⟨rfl, rfl, fun _ => rfl, fun _ => rfl⟩

theorem Edited.trans (h : Edited steady i i') (h' : Edited steady i' i'') : Edited steady i i'' where
  name := h'.name.trans h.name
  status := h'.status.trans h.status
  deleting hs := (h'.deleting hs).trans (h.deleting hs)
  finalizer hs := (h'.finalizer hs).trans (h.finalizer hs)

theorem Edited.phase (h : Edited steady i i') : i'.phase = i.phase := by
  rw [Instance.phase, Instance.phase, h.status]

theorem Edited.recordedId? (h : Edited steady i i') : i'.recordedId? = i.recordedId? := by
  rw [Instance.recordedId?, Instance.recordedId?, h.status]

/-- What a pass has read stays true. -/
theorem keeps_edited {faults : Failure → Prop} : (outside steady faults).Keeps (Edited steady i) :=
  fun _ _ hd h => h.trans hd

end Instance

/-- What a step changes is what its call does. -/
theorem InstanceStep.Answers.cases {t : InstanceStep} {a : t.Answer} {steady : Bool}
    {faults : Failure → Prop} {i i' : Instance} (h : t.Answers steady faults i a i') :
    i' = i ∨ ∃ c, t = .cluster c ∧ c.Alters i i' := by
  cases t with
  | cluster c =>
    cases a with
    | ok => exact .inr ⟨c, rfl, h⟩
    | error => exact h.2.imp_right fun h => ⟨c, rfl, h⟩
  | device =>
    cases a with
    | ok | error => exact .inl h.2
  | announce | clock => exact .inl h

/-! ## Orderly steps -/

/-- The next phase in the life of a machine. -/
def InstancePhase.next? : InstancePhase → Option InstancePhase
  | .empty => some .submitted
  | .submitted => some .reinstalling
  | .reinstalling => some .ready
  | .ready => some .managed
  | .managed => none

/-- The status can follow the one of the Instance: the phase is kept or goes on to the next one, and
the device stays the same once it is known. -/
structure InstanceStatus.Follows (steady : Bool) (st : InstanceStatus) (i : Instance) : Prop where
  unmanaged : i.phase ≠ .managed
  phase : i.phase.next? = some st.phase ∨ st.phase = i.phase ∧ i.phase ≠ .empty
  device : ∃ id, (steady = true → id ≠ "") ∧ st.instanceId = some id ∧
    (i.phase = .empty ∨ i.recordedId? = some id)

/-- What is an orderly step. What concerns deletion, the finalizer and the form of ids is said of
steady times. -/
def InstanceStep.Orderly (steady : Bool) (i : Instance) : InstanceStep → Prop
  | .cluster (.writeStatus _ st) => st.Follows steady i ∧ (steady = true → i.isDeleting = false)
  | .device (.create ..) => steady = true → i.metadata.hasFinalizer Names.deprovision = true
  | .device (.reconfigure ..) => i.phase = .submitted
  | .cluster _ | .device _ | .announce _ | .clock => True

/-- The record of a machine that was requested names its device. -/
def Instance.Recorded (steady : Bool) (i : Instance) : Prop :=
  ∀ st, i.status = some st →
    st.phase ≠ .empty ∧ ∃ id, (steady = true → id ≠ "") ∧ st.instanceId = some id

namespace Instance.Recorded

variable {i i' : Instance} {c : InstanceCall} {steady steady' : Bool}

theorem new (h : i.status = none) : i.Recorded steady := fun st hst => by simp [h] at hst

theorem edited (h : i.Recorded steady) (he : Edited steady' i i') : i'.Recorded steady :=
  fun st hst => h st (he.status ▸ hst)

/-- Past the first phase, the id of the device is known. -/
theorem exists_id (h : i.Recorded steady) (hphase : i.phase ≠ .empty) :
    ∃ id, (steady = true → i.deviceId? = some id) ∧ (steady = true → id ≠ "") ∧
      i.recordedId? = some id := by
  cases hst : i.status with
  | none => simp [Instance.phase, hst] at hphase
  | some st =>
    obtain ⟨-, id, hne, hid⟩ := h st hst
    exact ⟨id, fun hs => by simp [deviceId?, hst, hid, hne hs], hne, by simp [recordedId?, hst, hid]⟩

theorem recordedId?_of_empty (h : i.Recorded steady) (hphase : i.phase = .empty) : i.recordedId? = none := by
  cases hst : i.status with
  | none => simp [recordedId?, hst]
  | some st =>
    rw [Instance.phase, hst] at hphase
    exact absurd hphase (h st hst).1

theorem call (h : i.Recorded steady) (hp : InstanceStep.Orderly steady i (.cluster c)) (ha : c.Alters i i') :
    i'.Recorded steady := by
  cases c with
  | writeStatus n st =>
    cases ha
    rintro st' ⟨⟩
    obtain ⟨id, hne, hid, -⟩ := hp.1.device
    refine ⟨?_, id, hne, by simp [InstanceStatus.over, hid]⟩
    show st.phase ≠ .empty
    rcases hp.1.phase with hnext | ⟨hsame, hphase⟩
    · -- the first phase comes after no other
      intro hempty
      rw [hempty] at hnext
      cases hi : i.phase <;> simp [hi, InstancePhase.next?] at hnext
    · exact hsame ▸ hphase
  | addFinalizer | removeFinalizer => exact ha ▸ h
  | deleteInstance =>
    obtain ⟨t, rfl⟩ := ha
    exact h
  | getNode | deleteNode => exact ha ▸ h

/-- An orderly call keeps the phase or takes it to the next one. -/
theorem phase_call (hp : InstanceStep.Orderly steady i (.cluster c)) (ha : c.Alters i i') :
    i'.phase = i.phase ∨ i.phase.next? = some i'.phase := by
  cases c with
  | writeStatus n st =>
    cases ha
    exact hp.1.phase.symm.imp_left And.left
  | addFinalizer | removeFinalizer => exact .inl (ha ▸ rfl)
  | deleteInstance =>
    obtain ⟨t, rfl⟩ := ha
    exact .inl rfl
  | getNode | deleteNode => exact .inl (ha ▸ rfl)

/-- An orderly call keeps the id of the device. -/
theorem recordedId?_call (h : i.Recorded steady) (hp : InstanceStep.Orderly steady i (.cluster c))
    (ha : c.Alters i i') {id : String} (hid : i.recordedId? = some id) : i'.recordedId? = some id := by
  cases c with
  | writeStatus n st =>
    cases ha
    obtain ⟨k, -, hk, hsame⟩ := hp.1.device
    rcases hsame with hempty | hsame
    · -- in the first phase there is no device to be lost
      rw [h.recordedId?_of_empty hempty] at hid
      cases hid
    · rw [hsame] at hid
      simpa [recordedId?, InstanceStatus.over, hk] using hid
  | addFinalizer | removeFinalizer => exact ha ▸ hid
  | deleteInstance =>
    obtain ⟨t, rfl⟩ := ha
    exact hid
  | getNode | deleteNode => exact ha ▸ hid

end Instance.Recorded

end BareMetal
