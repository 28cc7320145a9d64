import BareMetal.Proofs.Instance.Conduct
import BareMetal.Proofs.Instance.Script

/-!
# Passes over an Instance are proper

Each step of the script is proper from what is known of the site at its place (`Site.Known`), and leads to
where it is known again. What is known is that the Instance which the pass looks at is the stored one, and what
the answers have shown of its device, until the pass writes the status, after which it only announces.
-/

namespace BareMetal

open Site

variable {edits : Instance → Instance → Prop} {project : Option String} {s : Settings} {i : Instance}
  {st : Instance.Place} {w w' : Site}

/-! ## What is known at a place -/

namespace Site

/-- What a pass over the Instance knows of the site at the place. -/
def Known (i : Instance) : Instance.Place → Site → Prop
  | .opened, w | .obtained _, w | .reconfigured _, w => w.Shows i
  | .missing c, w => w.Shows i ∧ w.Vacant c.projectId i.name
  | .polled d, w => w.Shows i ∧ (d.state.isSettled = true → ∃ id, i.deviceId? = some id ∧ w.Quiet id)
  | .released, w | .cleared, w => w.Shows i ∧ w.Released
  | .ended, _ | .failed _, _ => True

theorem keeps_known : (outside edits).Keeps (Known i st) := by
  cases st with
  | opened | obtained | reconfigured => exact keeps_shows
  | missing => exact keeps_shows.and keeps_vacant
  | polled d =>
    intro w w' hd h
    refine ⟨keeps_shows hd h.1, fun hsettled => ?_⟩
    obtain ⟨id, hid, hquiet⟩ := h.2 hsettled
    exact ⟨id, hid, keeps_quiet hd hquiet⟩
  | released | cleared => exact keeps_shows.and keeps_released
  | ended | failed => exact Outside.keeps_true _

end Site

/-! ## Steps -/

/-- A call to the cluster is proper, and what is known where it leads follows from what it does. -/
theorem InstanceCall.safe_spelled {c : InstanceCall} {dest : c.Result → Instance.Place} (hw : w.Known i st)
    (hc : ∀ w, Known i st w → c.about = w.object.name ∧ c.Proper w)
    (hdest : ∀ w a w', Known i st w → c.Takes w w' → Known i (dest a) w') :
    ((InstanceStep.cluster c).spelled s).Safe (outside edits) (SiteStep.Proper project)
      (fun r w => w.Known i (.after dest r)) w := by
  refine Program.safe_perform keeps_known hc (fun w r w' hw ha => ?_) hw
  refine Instance.Place.forall_after (P := fun st => w'.Known i st) (fun _ _ => trivial) ?_
  rintro a rfl
  exact hdest w a w' hw ha

/-- The requests of a call to the service are proper. -/
theorem DeviceCall.safe_spelled {c : DeviceCall} {dest : c.Result → Instance.Place} {P : Site → Prop}
    (h : (requestLogic edits project).Leads P (c.requests s).1 fun a w => w.Known i (dest a)) (hw : P w) :
    ((InstanceStep.device c).spelled s).Safe (outside edits) (SiteStep.Proper project)
      (fun r w => w.Known i (.after dest r)) w := by
  refine Program.Safe.bind ((h w hw).mono (fun _ _ h => h) fun r w hr => ?_)
  cases r with
  | ok a => exact hr.1 a rfl
  | error => trivial

namespace Instance

/-- A status that is written has gone on from the first phase, and names the recorded device. -/
theorem WritesAt.proper {status : InstanceStatus} (h : i.WritesAt st status) :
    status.phase ≠ .empty ∧ (i.phase = .empty ∨ status.instanceId = i.status.bind (·.instanceId)) := by
  cases h with
  | obtained hphase => exact ⟨nofun, .inl hphase⟩
  | pending hphase =>
    refine ⟨?_, .inr i.statusOrNew_instanceId⟩
    show i.statusOrNew.phase ≠ .empty
    rw [i.statusOrNew_phase]
    rcases hphase with hphase | hphase <;> simp [hphase]
  | reconfigured | ready | managed => exact ⟨nofun, .inr i.statusOrNew_instanceId⟩

/-- Where a status is written, the Instance is the stored one. -/
theorem WritesAt.shows {status : InstanceStatus} (h : i.WritesAt st status) (hw : w.Known i st) : w.Shows i := by
  cases h with
  | obtained | reconfigured | managed => exact hw
  | pending | ready => exact hw.1

/-- The recorded device is given back if none is recorded. -/
theorem released_of_deviceId?_eq_none (hw : w.Shows i) (hid : i.deviceId? = none) : w.Released := by
  intro id _ h
  rw [hw.deviceId?, hid] at h
  cases h

theorem projectId_of_credentials {c : Credentials} (hc : Credentials.ofInstance i = .ok c) :
    i.spec.projectId = some c.projectId :=
  (Option.filter_eq_some_iff.1 (Credentials.projectId_of_ofInstance hc)).1

/-- A step of the script is proper, and leads to where enough is known again. -/
theorem May.safe {t : InstanceStep} {dest : t.Answer → Place} (h : i.May st t dest) (hw : w.Known i st) :
    (t.spelled s).Safe (outside edits) (SiteStep.Proper i.spec.projectId) (fun a w => w.Known i (dest a)) w := by
  cases h with
  | announce | clock =>
    exact Program.safe_perform keeps_known (fun _ _ => trivial) (fun _ _ w' hw (ha : w' = _) => ha ▸ hw) hw
  | getNode =>
    exact InstanceCall.safe_spelled hw (fun w hw => ⟨hw.1.symm, trivial⟩)
      fun _ _ w' hw (ht : w' = _) => ht ▸ hw
  | addFinalizer | deleteInstance =>
    exact InstanceCall.safe_spelled hw (fun w hw => ⟨hw.1.symm, trivial⟩) fun _ _ _ _ _ => trivial
  | find hc =>
    refine DeviceCall.safe_spelled ((leads_find (projectId_of_credentials hc)).bind fun d? => ?_) hw
    refine Logic.leadsOr_pure fun w hw => ?_
    cases d? with
    | none => exact ⟨hw.1, hw.2 rfl⟩
    | some d => exact hw.1
  | create hphase _ hc =>
    exact DeviceCall.safe_spelled (leads_create hc hphase (projectId_of_credentials hc)) hw
  | @status c id hid =>
    refine DeviceCall.safe_spelled (leads_status.weaken fun d? w hw => ?_) hw
    cases d? with
    | none => exact hw.1
    | some d => exact ⟨hw.1, fun hsettled => ⟨id, hid, hw.2 d rfl hsettled⟩⟩
  | reconfigure _ hsettled =>
    obtain ⟨id, hid, hquiet⟩ := hw.2 hsettled
    exact DeviceCall.safe_spelled (leads_reconfigure hid) ⟨hw.1, hquiet⟩
  | record _ hwrites =>
    refine InstanceCall.safe_spelled hw (fun w hw => ?_) fun _ _ _ _ _ => trivial
    have hshows := hwrites.shows hw
    refine ⟨hshows.1.symm, hwrites.proper.1, ?_⟩
    rw [hshows.phase, hshows.2]
    exact hwrites.proper.2
  | deprovision _ hid => exact DeviceCall.safe_spelled (leads_delete hid) hw
  | deleteNode _ hst =>
    have hshown (w : Site) (hw : w.Known i st) : w.Shows i ∧ w.Released := by
      rcases hst with rfl | ⟨rfl, hid⟩
      · exact hw
      · exact ⟨hw, released_of_deviceId?_eq_none hw hid⟩
    exact InstanceCall.safe_spelled hw (fun w hw => ⟨(hshown w hw).1.1.symm, trivial⟩)
      fun w _ w' hw (ht : w' = _) => ht ▸ hshown w hw
  | removeFinalizer =>
    exact InstanceCall.safe_spelled hw (fun w hw => ⟨hw.1.1.symm, hw.2⟩) fun _ _ _ _ _ => trivial

/-! ## Passes -/

/-- A pass over the stored Instance takes only proper steps. -/
theorem pass_safe {m : InstanceMemory} :
    (w.object.pass s m).Safe (outside edits) (SiteStep.Proper w.object.spec.projectId)
      (fun _ _ => True) w := by
  have hopened : w.Known w.object .opened := ⟨rfl, rfl⟩
  exact ((w.object.reconcile_follows s m).safe (fun hmay _ hw => hmay.safe hw) hopened).mono
    (fun _ _ h => h) fun _ _ _ => trivial

end Instance

end BareMetal
