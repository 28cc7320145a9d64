import BareMetal.Proofs.Device.Deletion
import BareMetal.Proofs.Instance.Changes
import BareMetal.Proofs.Instance.Record
import BareMetal.Proofs.Instance.Removal

/-!
# Release

The finalizer of an Instance stays until its device and its Node are given back. Only a visit to an
Instance that is being deleted takes it away, and not before all other steps of the removal succeeded; so
over any visits it stays until one of them completes (`Instance.deprovisioned_before_release`).
-/

namespace BareMetal

/-! ## Steps that hold the finalizer -/

/-- The step takes a finalizer away. -/
def InstanceStep.releases : InstanceStep → Bool
  | .cluster (.removeFinalizer _) => true
  | .cluster _ | .device _ | .announce _ | .clock => false

theorem InstanceStep.eq_of_releases {t : InstanceStep} (h : t.releases = true) :
    ∃ name, t = .cluster (.removeFinalizer name) := by
  cases t with
  | cluster c =>
    cases c with
    | removeFinalizer name => exact ⟨name, rfl⟩
    | writeStatus | addFinalizer | deleteInstance | getNode | deleteNode => cases h
  | device | announce | clock => cases h

/-! ## Runs -/

theorem InstanceStep.Answers.hasFinalizer {t : InstanceStep} {a : t.Answer} {steady : Bool}
    {faults : Failure → Prop} {i i' : Instance} (h : t.Answers steady faults i a i')
    (ht : t.releases = false) (hi : i.metadata.hasFinalizer Names.deprovision = true) :
    i'.metadata.hasFinalizer Names.deprovision = true := by
  obtain rfl | ⟨c, rfl, hc⟩ := h.cases
  · exact hi
  · cases c with
    | writeStatus | getNode | deleteNode => exact hc ▸ hi
    | addFinalizer =>
      -- it is there, so nothing is added
      have hkept : i.metadata.finalizersWith? Names.deprovision = none := if_pos hi
      rw [InstanceCall.Alters, hkept] at hc
      exact hc ▸ hi
    | removeFinalizer => cases ht
    | deleteInstance =>
      obtain ⟨_, rfl⟩ := hc
      exact hi

namespace Instance

/-- Steps with these answers take the stored Instance from the first to the second. In between others
change it as they like, but leave our finalizer there. A step that failed may have taken effect. -/
inductive Leaves (answer : (t : InstanceStep) → t.Answer) : List InstanceStep → Instance → Instance → Prop
  | done {i : Instance} : Leaves answer [] i i
  | edit {ts : List InstanceStep} {i i' i'' : Instance} :
    (i.metadata.hasFinalizer Names.deprovision = true → i'.metadata.hasFinalizer Names.deprovision = true) →
      Leaves answer ts i' i'' → Leaves answer ts i i''
  | step {t : InstanceStep} {ts : List InstanceStep} {i i' i'' : Instance} :
    t.Answers false (fun _ => True) i (answer t) i' → Leaves answer ts i' i'' → Leaves answer (t :: ts) i i''

/-- Visits to an Instance, one after the other. What a visit sees of it may be out of date, and it may
break off after any of its steps. -/
inductive Visited (i : Instance) : List Visit → Instance → Prop
  | start : Visited i [] i
  | visit {vs : List Visit} {v : Visit} {ts : List InstanceStep} {j k : Instance} : Visited i vs j →
    v.name = i.name → ts <+: v.told.calls → Leaves v.answer ts j k → Visited i (vs ++ [v]) k

variable {answer : (t : InstanceStep) → t.Answer} {ts : List InstanceStep} {i j : Instance}

theorem Leaves.hasFinalizer (h : Leaves answer ts i j) (hts : ∀ t ∈ ts, t.releases = false)
    (hi : i.metadata.hasFinalizer Names.deprovision = true) :
    j.metadata.hasFinalizer Names.deprovision = true := by
  induction h with
  | done => exact hi
  | edit he _ ih => exact ih hts (he hi)
  | step ht _ ih =>
    obtain ⟨hholds, hts⟩ := List.forall_mem_cons.1 hts
    exact ih hts (ht.hasFinalizer hholds hi)

end Instance

/-- A visit that takes the finalizer away completes. -/
theorem Visit.completes_of_released {v : Visit} {ts : List InstanceStep} {i j : Instance}
    (hts : ts <+: v.told.calls) (h : Instance.Leaves v.answer ts i j)
    (hi : i.metadata.hasFinalizer Names.deprovision = true)
    (hj : j.metadata.hasFinalizer Names.deprovision = false) : v.Completes := by
  -- by `Leaves.hasFinalizer`, one of the steps is to blame, and only a removal takes it
  obtain ⟨t, ht, hreleases⟩ : ∃ t ∈ ts, t.releases = true := by
    by_contra hnone
    have hkept := h.hasFinalizer (fun t ht => Bool.eq_false_iff.2 fun hr => hnone ⟨t, ht, hr⟩) hi
    rw [hj] at hkept
    cases hkept
  obtain ⟨name, rfl⟩ := InstanceStep.eq_of_releases hreleases
  have hcall := hts.subset ht
  cases v.mayChange (List.mem_filterMap.2 ⟨_, hcall, rfl⟩) with
  | removeFinalizer hdeleting => exact (completes_of_deleting hdeleting hcall).2

namespace Instance

variable {vs : List Visit} {i j : Instance}

theorem Visited.completes (h : Visited i vs j) (hi : i.metadata.hasFinalizer Names.deprovision = true)
    (hj : j.metadata.hasFinalizer Names.deprovision = false) : ∃ v ∈ vs, v.name = i.name ∧ v.Completes := by
  induction h with
  | start =>
    rw [hi] at hj
    cases hj
  | @visit vs v ts j k hvs hname hts hleaves ih =>
    -- either this visit took the finalizer away, or it was gone before
    cases hhad : j.metadata.hasFinalizer Names.deprovision with
    | true => exact ⟨v, by simp, hname, Visit.completes_of_released hts hleaves hhad hj⟩
    | false =>
      obtain ⟨u, hu, hcompletes⟩ := ih hhad
      exact ⟨u, List.mem_append_left _ hu, hcompletes⟩

/-- A visit to an Instance that is being deleted gives back the recorded device, then the Node, then the
finalizer, and stops at the first failure; the device counts as given back exactly if the service says
that it deleted it or does not know it. So over any visits, whatever fails, the finalizer stays until one
of them has had all these steps succeed. -/
theorem deprovisioned_before_release :
    (∀ v : Visit, v.object.isDeleting = true → v.Orderly) ∧
    (∀ (s : Settings) (c : Credentials) (device : String) (answer : Http.Request → Option Http.Response),
      (((DeviceCall.delete c device).carryOut s).told answer).1 = .ok () ↔
        ∃ request, DeviceCall.deletion? s c device = some request ∧
          (((DeviceCall.delete c device).carryOut s).told answer).2 = [request] ∧
          Http.Gone (answer request)) ∧
    ∀ (i j : Instance) (vs : List Visit), i.metadata.hasFinalizer Names.deprovision = true →
      Visited i vs j → j.metadata.hasFinalizer Names.deprovision = false →
      ∃ v ∈ vs, v.name = i.name ∧ v.Completes :=
  ⟨fun _ => Visit.orderly_of_deleting, fun _ _ _ => DeviceCall.told_delete,
    fun _ _ _ hi h hj => h.completes hi hj⟩

/-- An Instance that is being deleted while its device runs. -/
def leaving : Instance where
  metadata :=
    { name := some "edge-a", deletionTimestamp := some .epoch, finalizers := some [Names.deprovision]
      annotations := some (Dict.ofList [(Names.tokenKey, "token")]) }
  spec := { projectId := some "project" }
  status := some { phase := .managed, instanceId := some "device-1" }

/-- A visit to it, which gets this answer to the deletion of the device. -/
def leavingVisit (deletion : Except Failure Unit) : Visit where
  settings := .standard
  object := leaving
  memory := {}
  answer
    | .cluster (.writeStatus ..) | .cluster (.addFinalizer _) | .cluster (.removeFinalizer _)
    | .cluster (.deleteInstance _) | .cluster (.deleteNode _) => .ok ()
    | .cluster (.getNode _) => .ok none
    | .device (.delete ..) => deletion
    | .device (.find ..) | .device (.create ..) | .device (.status ..) | .device (.reconfigure ..) =>
      .error (.cluster (.unavailable "timeout"))
    | .announce _ => ()
    | .clock => ⟨0⟩

/-- What it leaves in the end. -/
def left : Instance := { leaving with metadata := { leaving.metadata with finalizers := some [] } }

/-- The service does not answer in time. -/
def slow : Failure := .provisioning "device-1" "timeout" true

/-- The step that gives the device back. -/
def deletion : InstanceStep := .device (.delete ⟨"token", "project"⟩ "device-1")

theorem visited_left : Visited leaving [leavingVisit (.error slow), leavingVisit (.ok ())] left := by
  have hfailed : Leaves (leavingVisit (.error slow)).answer [deletion] leaving leaving :=
    .step ⟨trivial, rfl⟩ .done
  have hfirst : Visited leaving ([] ++ [leavingVisit (.error slow)]) leaving :=
    .visit .start rfl ⟨[], rfl⟩ hfailed
  have hdone : Leaves (leavingVisit (.ok ())).answer
      [deletion, .announce { reason := .deviceDeleted, activity := .delete
                             note := "device device-1 deprovisioned" },
        .cluster (.deleteNode "edge-a"), .cluster (.removeFinalizer "edge-a")] leaving left :=
    .step ⟨nofun, rfl⟩ (.step rfl (.step rfl (.step rfl .done)))
  exact .visit hfirst rfl ⟨[], rfl⟩ hdone

/-- A visit fails to delete the device, and gets no further. The next one completes. -/
theorem released_after_retry : ∃ vs : List Visit,
    leaving.isDeleting = true ∧ Visited leaving vs left ∧
      left.metadata.hasFinalizer Names.deprovision = false ∧
      (leavingVisit (.error slow) ∈ vs ∧
        (leavingVisit (.error slow)).told.calls.filter (·.asks) = [] ++ [deletion] ∧
        (leavingVisit (.error slow)).told.result = .error slow) ∧
      (∃ v ∈ vs, v.name = "edge-a" ∧ v.Completes) ∧
      (((DeviceCall.delete ⟨"token", "project"⟩ "device-1").carryOut .standard).told fun _ => none).1 ≠
        .ok () := by
  obtain ⟨horderly, hdeletion, hruns⟩ := deprovisioned_before_release
  refine ⟨_, rfl, visited_left, rfl, ⟨List.mem_cons_self, ?_⟩, ?_, fun hok => ?_⟩
  · exact (horderly _ rfl).failure [deletion] [] leaving.releasing deletion slow rfl rfl rfl (by simp) rfl
  · exact hruns leaving left _ rfl visited_left rfl
  · obtain ⟨_, _, _, _, hanswer, _⟩ := (hdeletion _ _ _ _).1 hok
    cases hanswer

end Instance

end BareMetal
