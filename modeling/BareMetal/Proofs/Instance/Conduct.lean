import BareMetal.Proofs.Instance.Site

/-!
# What passes over an Instance do

Every step of a pass is proper: a device is asked for only while nothing is recorded and none of
the devices made before is there, a reinstall only if the device has nothing else in progress, and
the finalizer is removed only when the recorded device is gone. What a pass has seen of the site
stays true while the site changes by itself, so it is proved by rules for the calls and one lemma
for each function.
-/

namespace BareMetal

/-! ## Proper steps -/

/-- The recorded device, if a pass made it, does not exist any more. -/
def Site.Released (w : Site) : Prop := ∀ id ∈ w.made, w.object.deviceId? = some id → ¬w.Has id

/-- What is proper to be asked of the cluster. -/
def InstanceCall.Proper (w : Site) : InstanceCall → Prop
  | .writeStatus _ st => st.phase ≠ .empty ∧
    (w.object.phase = .empty ∨ st.instanceId = w.object.status.bind (·.instanceId))
  | .removeFinalizer _ => w.Released
  | .addFinalizer _ | .deleteInstance _ | .getNode _ | .deleteNode _ => True

/-- What is proper to be asked of the service for an Instance with devices in the project. -/
def DeviceRequest.Proper (project : Option String) (w : Site) : DeviceRequest → Prop
  | .create p hostname _ => w.object.phase = .empty ∧ project = some p ∧
    hostname = w.object.name ∧ w.Vacant p hostname
  | .list p => project = some p
  | .reinstall id => w.Quiet id
  | .delete id => w.object.deviceId? = some id
  | .get _ | .update .. | .changePort .. => True

/-- What is a proper step of a pass. -/
def SiteStep.Proper (project : Option String) (t : SiteStep) (w : Site) : Prop :=
  match t with
  | .cluster c => c.about = w.object.name ∧ c.Proper w
  | .request r => r.Proper project w
  | .announce _ | .clock => True

/-- The credentials of an Instance name the project in its spec. -/
theorem Credentials.projectId_of_ofInstance {i : Instance} {c : Credentials}
    (h : Credentials.ofInstance i = .ok c) :
    i.spec.projectId.filter (· ≠ "") = some c.projectId := by
  unfold Credentials.ofInstance at h
  split at h
  · cases h
  · split at h
    · cases h
    · next hp =>
      cases h
      exact hp

/-! ## What stays true -/

namespace Site

variable {edits : Instance → Instance → Prop} {w w' : Site} {i : Instance} {id p hostname : String}

/-- The Instance that a pass looks at is up to date in its name and its status. -/
def Shows (i : Instance) (w : Site) : Prop :=
  w.object.name = i.name ∧ w.object.status = i.status

theorem Shows.phase (h : w.Shows i) : w.object.phase = i.phase := by
  rw [Instance.phase, Instance.phase, h.2]

theorem Shows.of_object (h : w.Shows i) (hw : w'.object = w.object) : w'.Shows i :=
  ⟨hw ▸ h.1, hw ▸ h.2⟩

theorem Shows.deviceId? (h : w.Shows i) : w.object.deviceId? = i.deviceId? := by
  rw [Instance.deviceId?, Instance.deviceId?, h.2]

theorem keeps_shows : (outside edits).Keeps (Shows i) :=
  fun _ _ hd h => ⟨Drifts.name hd ▸ h.1, Drifts.status hd ▸ h.2⟩

theorem quiet_of_settled {d : Device} (h : w.device? id = some d)
    (hd : d.deviceState.isSettled = true) : w.Quiet id := by
  obtain ⟨m, hm, rfl⟩ := Option.map_eq_some_iff.1 h
  refine ⟨m, (Option.filter_eq_some_iff.1 hm).1, ?_, ?_⟩
  · exact Bool.eq_false_iff.2 fun hc => by simp [m.unsettled hc] at hd
  · exact Bool.eq_false_iff.2 fun hr => by simp [m.busy hr, DeviceState.isSettled] at hd

theorem Quiet.move {f : String → Machine → Machine} (h : w.Quiet id)
    (hf : ∀ id m, Machine.Becomes m (f id m)) : (w.move f).Quiet id := by
  obtain ⟨m, hm, hc, hr⟩ := h
  refine ⟨f id m, by simp [Site.move, hm], ?_, ?_⟩
  · exact Bool.eq_false_iff.2 fun h => by simp [(hf id m).creating h] at hc
  · exact Bool.eq_false_iff.2 fun h => by simp [(hf id m).reinstalling h] at hr

theorem keeps_quiet : (outside edits).Keeps (Quiet · id) := by
  intro w w' hd hq
  obtain ⟨m, hm, hc, hr⟩ := hq
  cases hd with
  | edit => exact ⟨m, hm, hc, hr⟩
  | move hf => exact Quiet.move ⟨m, hm, hc, hr⟩ hf
  | @arrive m' hnone =>
    have hne : id ≠ m'.device.id := fun h => by simp [← h, hm] at hnone
    exact ⟨m, by simp [place, hne, hm], hc, hr⟩
  | @leave k =>
    by_cases hk : id = k
    · subst hk
      exact ⟨{ m with gone := true }, by simp [drop, hm], hc, hr⟩
    · exact ⟨m, by simp [drop, hk, hm], hc, hr⟩

theorem keeps_vacant : (outside edits).Keeps (Vacant · p hostname) := by
  intro w w' hd h id hid m' hm' hp hhost
  rw [Drifts.made hd] at hid
  obtain ⟨m, hm, ha⟩ := (Drifts.ages hd).origin hid hm'
  exact ha.gone (h id hid m hm (ha.project ▸ hp) (ha.hostname ▸ hhost))

theorem keeps_released : (outside edits).Keeps Released := by
  intro w w' hd h id hid hdev hhas
  rw [Drifts.made hd] at hid
  rw [Instance.deviceId?, Drifts.status hd] at hdev
  exact h id hid hdev ((Drifts.ages hd).has hid hhas)

end Site

/-! ## Requests -/

section Requests

variable {edits : Instance → Instance → Prop} {project : Option String} {i : Instance}
  {c : Credentials}

open Site

/-- Reasoning about sequences of requests. -/
abbrev requestLogic (edits : Instance → Instance → Prop) (project : Option String) :
    Logic (Program DeviceRequest DeviceRequest.Answer) Site :=
  .ofProgram (outside edits) (SiteStep.Proper project) DeviceRequest.spelled

theorem leads_request {r : DeviceRequest} {P : Site → Prop} {Q : r.Result → Site → Prop}
    (hP : (outside edits).Keeps P) (hr : ∀ w, P w → r.Proper project w)
    (hQ : ∀ w a w', P w → r.Takes w w' → r.Fits w w' a → Q a w') :
    (requestLogic edits project).Leads P (Provisioning.request r) Q := by
  intro w hw
  refine Program.Safe.bind (Program.safe_perform hP hr (fun w a w' hw ha => ⟨?_, fun _ _ => trivial⟩) hw)
  rintro b rfl
  exact hQ w b w' hw ha.1 ha.2

theorem leads_get {P : Site → Prop} {id : String} (hP : (outside edits).Keeps P) :
    (requestLogic edits project).Leads P (Provisioning.request (.get id))
      fun d? w => P w ∧ d? = w.device? id := by
  refine leads_request hP (fun _ _ => trivial) fun w d? w' hw ht hf => ?_
  cases ht
  exact ⟨hw, hf⟩

/-- Requests that only let devices move on keep what is known of one. -/
theorem leads_adjust {r : DeviceRequest} {id : String} (hr : ∀ w, r.Proper project w)
    (ht : ∀ {w w'}, r.Takes w w' → ∃ f : String → Machine → Machine,
      (∀ id m, Machine.Becomes m (f id m)) ∧ w' = w.move f) :
    (requestLogic edits project).Leads (fun w => w.Shows i ∧ w.Quiet id)
      (Provisioning.request r) fun _ w => w.Shows i ∧ w.Quiet id := by
  refine leads_request (keeps_shows.and keeps_quiet) (fun w _ => hr w) fun w _ w' hw h _ => ?_
  obtain ⟨f, hf, rfl⟩ := ht h
  exact ⟨hw.1.of_object rfl, hw.2.move hf⟩

theorem leads_find (hproject : project = some c.projectId) :
    (requestLogic edits project).Leads (Shows i)
      (Provisioning.findByHostname c.projectId i.name)
      fun d? w => w.Shows i ∧ (d? = none → w.Vacant c.projectId i.name) := by
  have hlist : (requestLogic edits project).Leads (Shows i)
      (Provisioning.request (.list c.projectId)) fun ds w => w.Shows i ∧ w.Lists c.projectId ds := by
    refine leads_request keeps_shows (fun _ _ => hproject) fun w ds w' hw ht hf => ?_
    cases ht
    exact ⟨hw, hf⟩
  refine hlist.bind fun ds => Logic.leadsOr_pure fun w hw => ?_
  refine ⟨hw.1, fun hnone id _ m hm hp hhost => ?_⟩
  by_contra hgone
  have hds : m.device ∈ ds :=
    (hw.2 m.device (hhost.trans hw.1.1.symm)).2 ⟨id, m, hm, Bool.eq_false_iff.2 hgone, hp, rfl⟩
  simpa [hhost] using List.find?_eq_none.1 hnone _ hds

theorem leads_create (hc : Credentials.ofInstance i = .ok c) (hphase : i.phase = .empty)
    (hproject : project = some c.projectId) :
    (requestLogic edits project).Leads (fun w => w.Shows i ∧ w.Vacant c.projectId i.name)
      (Provisioning.create c i) fun _ => Shows i := by
  have hp : c.projectId = (i.spec.projectId.filter (· ≠ "")).getD c.projectId := by
    rw [Credentials.projectId_of_ofInstance hc, Option.getD_some]
  refine (leads_request (keeps_shows.and keeps_vacant) (fun w hw => ?_) fun w d w' hw ht _ => ?_).bind
    fun d => Logic.leadsOr_pure fun w hw => hw
  · exact ⟨hw.1.phase.trans hphase, hp ▸ hproject, hw.1.1.symm, hp ▸ hw.2⟩
  · exact hw.1.of_object ht.frame.1

/-- A settled device has nothing in progress. -/
theorem leads_status {id : String} :
    (requestLogic edits project).Leads (Shows i) (Provisioning.status id)
      fun d? w => w.Shows i ∧ ∀ d, d? = some d → d.state.isSettled = true → w.Quiet id := by
  refine (leads_get keeps_shows).bind fun d? => Logic.leadsOr_pure fun w hw => ?_
  refine ⟨hw.1, fun d hd hsettled => ?_⟩
  obtain ⟨device, hdevice, rfl⟩ := Option.map_eq_some_iff.1 hd
  exact quiet_of_settled (hw.2 ▸ hdevice) hsettled

theorem leads_delete {id : String} (hid : i.deviceId? = some id) :
    (requestLogic edits project).Leads (Shows i) (Provisioning.delete id)
      fun _ w => w.Shows i ∧ w.Released := by
  have released {w : Site} (hw : w.Shows i) (hgone : ¬w.Has id) : w.Released := by
    intro k _ hk
    rw [hw.deviceId?, hid] at hk
    cases hk
    exact hgone
  have perform {w : Site} (hw : w.Shows i) : (DeviceRequest.delete id).spelled.Safe (outside edits)
      (SiteStep.Proper project)
      (fun r w => w.Shows i ∧ ((∀ f, r = .error f → f.isAbsent = true) → ¬w.Has id)) w := by
    refine Program.safe_perform keeps_shows (fun w hw => hw.deviceId?.trans hid) ?_ hw
    intro w r w' hw ha
    cases r with
    | ok =>
      exact ⟨hw.of_object (DeviceRequest.Takes.frame ha.1).1, fun _ => ha.1 ▸ not_has_drop w id⟩
    | error f =>
      refine ⟨ha.1.elim (fun h => h ▸ hw) fun ht => hw.of_object ht.frame.1, fun hf => ?_⟩
      exact ha.2 (hf f rfl)
  intro w hw
  refine Program.Safe.bind ((perform hw).mono (fun _ _ h => h) fun r w hr => ?_)
  cases r with
  | ok => exact ⟨fun _ _ => ⟨hr.1, released hr.1 (hr.2 nofun)⟩, fun _ _ => trivial⟩
  | error f =>
    show ((if f.isAbsent then pure () else throw f : Provisioning Unit).run.lower _).Safe _ _ _ w
    split
    · next hf =>
      refine ⟨fun _ _ => ⟨hr.1, released hr.1 (hr.2 fun g hg => ?_)⟩, fun _ _ => trivial⟩
      cases hg
      exact hf
    · exact ⟨nofun, fun _ _ => trivial⟩

theorem leads_reconfigure {id : String} {script : String} (hid : i.deviceId? = some id) :
    (requestLogic edits project).Leads (fun w => w.Shows i ∧ w.Quiet id)
      (Provisioning.reconfigure i script) fun _ => Shows i := by
  have hkeeps : (outside edits).Keeps fun w => w.Shows i ∧ w.Quiet id := keeps_shows.and keeps_quiet
  have restart (state : DeviceState) : (requestLogic edits project).Leads
      (fun w => w.Shows i ∧ w.Quiet id)
      (if state = .reinstalling then pure () else Provisioning.request (.reinstall id))
      fun _ => Shows i := by
    split
    · exact Logic.leadsOr_pure fun _ hw => hw.1
    · exact leads_request hkeeps (fun w hw => hw.2) fun _ _ _ hw ht _ => hw.1.of_object ht.frame.1
  have finish (d : Device) : (requestLogic edits project).Leads (fun w => w.Shows i ∧ w.Quiet id)
      (do
        let change := Provisioning.bootChange i d
          (← Provisioning.reconfigure.liftExcept (Provisioning.finalUserdata i d)) script
        unless change.isEmpty do
          let _ ← Provisioning.request (.update id change)
        unless d.deviceState = .reinstalling do
          Provisioning.request (.reinstall id)) fun _ => Shows i := by
    refine Logic.LeadsOr.bind (Logic.leads_check fun _ _ _ h => h) fun userdata => ?_
    dsimp only
    split
    · exact restart d.deviceState
    · exact (leads_adjust (r := .update id _) (fun _ => trivial) fun h => h).bind
        fun _ => restart d.deviceState
  simp only [Provisioning.reconfigure, hid]
  refine (leads_get hkeeps).bind fun d? => Logic.LeadsOr.strengthen ?_ fun w hw => hw.1
  cases d? with
  | none => exact Logic.leads_throw _
  | some d =>
    dsimp only
    split
    · exact finish d
    · refine Logic.LeadsOr.bind (Logic.leads_check fun _ _ _ h => h) fun plan => ?_
      refine Logic.LeadsOr.bind (Logic.leadsOr_forIn fun a _ => ?_) fun _ => finish d
      exact leads_adjust (r := .changePort a.portId a.change) (fun _ => trivial) fun h => h

end Requests

end BareMetal
