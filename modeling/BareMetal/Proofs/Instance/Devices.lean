import BareMetal.Proofs.Instance.Pass
import Mathlib.Data.List.Perm.Subperm

/-!
# The devices of an Instance

What runs of passes make of the devices at the service. Every device that a pass has created is
recorded, gone by itself, or still there unrecorded (`Site.Tracked`). While the spec is not edited,
at most one device is created unless one is lost, in the project in which it is looked for; a device
is reinstalled only if nothing else is in progress. When the finalizer is removed, exactly the
devices that were never recorded are left.
-/

namespace BareMetal

open Site

variable {edits : Instance → Instance → Prop} {w w' : Site} {project : Option String}

/-! ## Devices are tracked -/

/-- What becomes of the devices that passes have created. -/
structure Site.Tracked (w : Site) : Prop where
  phase : ∀ st, w.object.status = some st → st.phase ≠ .empty
  known : ∀ id ∈ w.made, ∃ m, w.machines id = some m
  accounted : ∀ id ∈ w.made, ¬w.Has id → id ∈ w.lost ∨ w.object.deviceId? = some id
  made : ∀ id ∈ w.lost, id ∈ w.made
  vanished : ∀ id ∈ w.lost, ¬w.Has id

theorem Site.Tracked.status_of_empty (h : w.Tracked) (hphase : w.object.phase = .empty) :
    w.object.status = none := by
  cases hst : w.object.status with
  | none => rfl
  | some st =>
    rw [Instance.phase, hst] at hphase
    exact absurd hphase (h.phase st hst)

/-- While nothing is recorded, the devices that are gone are lost. -/
theorem Site.Tracked.lost_of_empty (h : w.Tracked) (hphase : w.object.phase = .empty) {id : String}
    (hid : id ∈ w.made) (hgone : ¬w.Has id) : id ∈ w.lost := by
  rcases h.accounted id hid hgone with hlost | hrecorded
  · exact hlost
  · rw [Instance.deviceId?, h.status_of_empty hphase] at hrecorded
    cases hrecorded

theorem Site.Tracked.drift (h : w.Tracked) (hd : Drifts edits w w') : w'.Tracked where
  phase := by
    rw [hd.status]
    exact h.phase
  known id hid := by
    obtain ⟨m, hm⟩ := h.known id (hd.made ▸ hid)
    obtain ⟨m', hm', -⟩ := hd.ages.forth hm
    exact ⟨m', hm'⟩
  accounted id hid hgone := by
    have hmade : id ∈ w.made := hd.made ▸ hid
    rw [Instance.deviceId?, hd.status]
    by_cases hw : w.Has id
    · exact .inl ((hd.has hw).resolve_left hgone hmade)
    · exact (h.accounted id hmade hw).imp_left fun hid => hd.lost.subset hid
  made id hid := by
    rw [hd.made]
    rcases hd.lost_cases hid with hid | hid
    · exact h.made id hid
    · exact hid.1
  vanished id hid := by
    rcases hd.lost_cases hid with hid | hid
    · exact fun hhas => h.vanished id hid (hd.ages.has (h.made id hid) hhas)
    · exact hid.2

/-- A recorded device stays recorded. -/
theorem InstanceCall.Takes.deviceId? {c : InstanceCall} (ht : c.Takes w w') (hp : c.Proper w)
    (h : w.Tracked) {id : String} (hid : w.object.deviceId? = some id) :
    w'.object.deviceId? = some id := by
  cases c with
  | writeStatus n st =>
    have hst : st.instanceId = w.object.status.bind (·.instanceId) := by
      refine hp.2.resolve_left fun hphase => ?_
      rw [Instance.deviceId?, h.status_of_empty hphase] at hid
      cases hid
    cases ht
    rw [Instance.deviceId?] at hid ⊢
    simpa [InstanceStatus.over, hst] using hid
  | addFinalizer | removeFinalizer => exact ht ▸ hid
  | deleteInstance =>
    obtain ⟨t, rfl⟩ := ht
    exact hid
  | getNode | deleteNode => exact ht ▸ hid

theorem InstanceCall.Takes.phase {c : InstanceCall} (ht : c.Takes w w') (hp : c.Proper w)
    (h : w.Tracked) : ∀ st, w'.object.status = some st → st.phase ≠ .empty := by
  cases c with
  | writeStatus n st =>
    cases ht
    rintro st' ⟨⟩
    exact hp.1
  | addFinalizer | removeFinalizer => exact ht ▸ h.phase
  | deleteInstance =>
    obtain ⟨t, rfl⟩ := ht
    exact h.phase
  | getNode | deleteNode => exact ht ▸ h.phase

theorem Site.Tracked.call {c : InstanceCall} (h : w.Tracked) (hp : c.Proper w)
    (ht : c.Takes w w') : w'.Tracked := by
  have hphase := ht.phase hp h
  have hid {id : String} : w.object.deviceId? = some id → w'.object.deviceId? = some id :=
    ht.deviceId? hp h
  obtain ⟨i, rfl, -⟩ := ht.frame
  exact ⟨hphase, h.known, fun id hmade hgone => (h.accounted id hmade hgone).imp_right hid,
    h.made, h.vanished⟩

theorem Site.Tracked.request {r : DeviceRequest} (h : w.Tracked) (hp : r.Proper project w)
    (ht : r.Takes w w') : w'.Tracked := by
  have hages := ht.ages fun id hid => Option.isSome_iff_exists.2 (h.known id hid)
  have hmade : ∀ id ∈ w.made, id ∈ w'.made := by
    rcases ht.made with heq | ⟨m, -, -, heq, -⟩
    · exact fun id hid => heq ▸ hid
    · exact fun id hid => heq ▸ List.mem_cons_of_mem _ hid
  have hnew : ∀ id ∈ w'.made, id ∈ w.made ∨ w'.Has id := by
    rcases ht.made with heq | ⟨m, hm, -, heq, hgone, -⟩
    · exact fun id hid => .inl (heq ▸ hid)
    · intro id hid
      rcases List.mem_cons.1 (heq ▸ hid) with rfl | hid
      · exact .inr ⟨m, hm, hgone⟩
      · exact .inl hid
  refine ⟨?_, fun id hid => ?_, fun id hid hgone => ?_, fun id hid => ?_, fun id hid hhas => ?_⟩
  · rw [ht.frame.1]
    exact h.phase
  · rcases hnew id hid with hid | ⟨m, hm, -⟩
    · obtain ⟨m, hm⟩ := h.known id hid
      obtain ⟨m', hm', -⟩ := hages.forth hm
      exact ⟨m', hm'⟩
    · exact ⟨m, hm⟩
  · rw [ht.frame.2, ht.frame.1]
    have hid := (hnew id hid).resolve_right hgone
    by_cases hr : r = .delete id
    · subst hr
      exact .inr hp
    · exact h.accounted id hid fun hw => hgone (ht.has hr hw)
  · exact hmade id (h.made id (ht.frame.2 ▸ hid))
  · rw [ht.frame.2] at hid
    exact h.vanished id hid (hages.has (h.made id hid) hhas)

theorem Site.Tracked.step {t : SiteStep} {a : t.Answer} (h : w.Tracked) (hp : t.Proper project w)
    (ha : t.Answers w a w') : w'.Tracked := by
  obtain rfl | ⟨c, rfl, ht⟩ | ⟨r, rfl, ht⟩ := ha.cases
  · exact h
  · exact h.call hp.2 ht
  · exact h.request hp ht

theorem Site.tracked_new {i : Instance} (h : i.status = none) (machines : String → Option Machine) :
    Tracked ⟨i, machines, [], []⟩ where
  phase st hst := by simp [h] at hst
  known := nofun
  accounted := nofun
  made := nofun
  vanished := nofun

/-! ## At most one device -/

/-- An Instance whose name and spec are settled has devices only in its project and under its name,
and at most one more of them was made than were lost. -/
structure Site.Single (i : Instance) (w : Site) : Prop extends w.Tracked where
  name : w.object.name = i.name
  spec : w.object.spec = i.spec
  own : ∀ id ∈ w.made, ∀ m, w.machines id = some m →
    i.spec.projectId = some m.project ∧ m.device.hostname = i.name
  distinct : w.made.Nodup
  count : w.made.length ≤ w.lost.length + 1

/-- The spec is not edited. -/
def Instance.KeepsSpec (i i' : Instance) : Prop := i'.spec = i.spec

variable {i : Instance}

theorem Site.Single.drift (h : w.Single i) (hd : Drifts Instance.KeepsSpec w w') :
    w'.Single i where
  toTracked := h.toTracked.drift hd
  name := hd.name.trans h.name
  spec := by
    cases hd with
    | edit _ _ hspec => exact hspec.trans h.spec
    | move | arrive | leave => exact h.spec
  own id hid m' hm' := by
    rw [hd.made] at hid
    obtain ⟨m, hm, ha⟩ := hd.ages.origin hid hm'
    rw [ha.project, ha.hostname]
    exact h.own id hid m hm
  distinct := hd.made ▸ h.distinct
  count := by
    rw [hd.made]
    exact Nat.le_trans h.count (Nat.succ_le_succ hd.lost.length_le)

theorem Site.Single.call {c : InstanceCall} (h : w.Single i) (hp : c.Proper w)
    (ht : c.Takes w w') : w'.Single i := by
  have htracked := h.toTracked.call hp ht
  obtain ⟨j, rfl, hname, hspec⟩ := ht.frame
  exact ⟨htracked, hname.trans h.name, hspec.trans h.spec, h.own, h.distinct, h.count⟩

/-- When a device may be asked for, those made before are all lost. -/
theorem Site.Single.lost_of_create {p hostname : String} {spec : InstanceSpec} (h : w.Single i)
    (hp : (DeviceRequest.create p hostname spec).Proper i.spec.projectId w) :
    ∀ id ∈ w.made, id ∈ w.lost := by
  obtain ⟨hphase, hproject, rfl, hvacant⟩ := hp
  intro id hid
  refine h.lost_of_empty hphase hid ?_
  rintro ⟨m, hm, hgone⟩
  obtain ⟨hmp, hmn⟩ := h.own id hid m hm
  rw [hproject] at hmp
  have := hvacant id hid m hm (Option.some.inj hmp).symm (hmn.trans h.name.symm)
  simp [hgone] at this

theorem Site.Single.request {r : DeviceRequest} (h : w.Single i)
    (hp : r.Proper i.spec.projectId w) (ht : r.Takes w w') : w'.Single i := by
  have htracked := h.toTracked.request hp ht
  have hages := ht.ages fun id hid => Option.isSome_iff_exists.2 (h.known id hid)
  have hown : ∀ id ∈ w.made, ∀ m', w'.machines id = some m' →
      i.spec.projectId = some m'.project ∧ m'.device.hostname = i.name := by
    intro id hid m' hm'
    obtain ⟨m, hm, ha⟩ := hages.origin hid hm'
    rw [ha.project, ha.hostname]
    exact h.own id hid m hm
  refine ⟨htracked, ht.frame.1 ▸ h.name, ht.frame.1 ▸ h.spec, ?_, ?_, ?_⟩
  all_goals rcases ht.made with hmade | ⟨m, hm, hnone, hmade, -, spec, rfl⟩ <;> rw [hmade]
  · exact hown
  · intro id hid m' hm'
    rcases List.mem_cons.1 hid with rfl | hid
    · rw [hm] at hm'
      cases hm'
      exact ⟨hp.2.1, hp.2.2.1.trans h.name⟩
    · exact hown id hid m' hm'
  · exact h.distinct
  · refine List.nodup_cons.2 ⟨fun hid => ?_, h.distinct⟩
    obtain ⟨m', hm'⟩ := h.known _ hid
    simp [hnone] at hm'
  · exact ht.frame.2 ▸ h.count
  · rw [ht.frame.2, List.length_cons]
    exact Nat.succ_le_succ (List.Nodup.subperm h.distinct (h.lost_of_create hp)).length_le

theorem Site.Single.step {t : SiteStep} {a : t.Answer} (h : w.Single i)
    (hp : t.Proper i.spec.projectId w) (ha : t.Answers w a w') : w'.Single i := by
  obtain rfl | ⟨c, rfl, ht⟩ | ⟨r, rfl, ht⟩ := ha.cases
  · exact h
  · exact h.call hp.2 ht
  · exact h.request hp ht

theorem Site.upholds_single : (outside Instance.KeepsSpec).Upholds Begins
    (SiteStep.Proper i.spec.projectId) (Single i) where
  drift _ _ hd h := h.drift hd
  call h hp ha := h.step hp ha
  begin := by
    rintro w p h ⟨s, m, rfl⟩
    rw [← h.spec]
    exact Instance.pass_safe

/-- Along every run of passes over an Instance that starts without status and whose spec is not
edited, calls may fail with or without having taken effect and passes may be dropped anywhere: at
most one device is made, and one more for each that vanished by itself; devices are made and looked
for in the project of the spec alone and made under the name of the Instance, and a device is
reinstalled only when neither its creation nor a reinstall is in progress. -/
theorem Instance.one_device (hi : i.status = none) {machines : String → Option Machine}
    {y : Situation SiteStep SiteStep.Answer Site (Except Failure Followup × InstanceMemory)}
    (hr : Site.Reaches Instance.KeepsSpec ⟨⟨i, machines, [], []⟩, none⟩ y) :
    y.world.made.length ≤ y.world.lost.length + 1 ∧
    (∀ p hostname spec, y.Sends (.request (.create p hostname spec)) →
      i.spec.projectId = some p ∧ hostname = i.name) ∧
    (∀ p, y.Sends (.request (.list p)) → i.spec.projectId = some p) ∧
    ∀ id, y.Sends (.request (.reinstall id)) → y.world.Quiet id := by
  have hnew : Single i ⟨i, machines, [], []⟩ :=
    ⟨tracked_new hi machines, rfl, rfl, nofun, .nil, Nat.zero_le _⟩
  have hy : y.world.Single i := (upholds_single.run hr hnew rfl).1
  have hproper {t : SiteStep} (ht : y.Sends t) := upholds_single.permitted hr hnew rfl ht
  refine ⟨hy.count, fun p hostname spec hc => ?_, fun p hc => hproper hc, fun id hc => hproper hc⟩
  obtain ⟨-, hp, hname, -⟩ := hproper hc
  exact ⟨hp, hname.trans hy.name⟩

/-! ## A run that makes a device -/

/-- An Instance with all that a device is asked for with. -/
def Instance.fresh : Instance where
  metadata := {
    name := some "metal-1", finalizers := some [Names.deprovision]
    annotations := some (Dict.ofList [(Names.tokenKey, "secret")]) }
  spec := { plan := "c3.small", operatingSystem := "custom_ipxe", projectId := some "lab" }

/-- The device that is made for it. -/
def Machine.first : Machine where
  project := "lab"
  device := { id := "device-1", hostname := "metal-1", state := "queued" }
  creating := true
  unsettled _ := rfl

/-- Answers of a service that has no devices but makes one, and of a cluster that does not get to
write a status. -/
def SiteStep.sparseAnswer : (t : SiteStep) → t.Answer
  | .cluster (.writeStatus ..) => .error (.cluster (.unavailable "timeout"))
  | .cluster (.getNode _) => .ok none
  | .cluster (.addFinalizer _) | .cluster (.removeFinalizer _) | .cluster (.deleteInstance _)
  | .cluster (.deleteNode _) => .ok ()
  | .request (.list _) => .ok []
  | .request (.create ..) => .ok Machine.first.device
  | .request (.get _) => .ok none
  | .request (.update ..) | .request (.reinstall _) | .request (.delete _)
  | .request (.changePort ..) => .error (.transport "timeout")
  | .announce _ => ()
  | .clock => .epoch

/-- The site before the first pass. -/
def Site.bare : Site := ⟨Instance.fresh, fun _ => none, [], []⟩

/-- The site with the device made. -/
def Site.first : Site :=
  { bare.place "device-1" Machine.first with made := ["device-1"] }

/-- A pass that makes the device and is about to record it. -/
def Instance.recording :
    Program SiteStep SiteStep.Answer (Except Failure Followup × InstanceMemory) :=
  ((Instance.fresh.pass .standard {}).rest SiteStep.sparseAnswer).rest SiteStep.sparseAnswer

theorem reaches_first : Site.Reaches edits ⟨bare, none⟩ ⟨first, some Instance.recording⟩ := by
  have hstart : Site.Reaches edits ⟨bare, none⟩ ⟨bare, some (Instance.fresh.pass .standard {})⟩ :=
    .single (.begin ⟨.standard, {}, rfl⟩)
  have hlist : (Instance.fresh.pass .standard {}).first? = some (.request (.list "lab")) := rfl
  have hcreate : ((Instance.fresh.pass .standard {}).rest SiteStep.sparseAnswer).first? =
      some (.request (.create "lab" "metal-1" Instance.fresh.spec)) := rfl
  have hlisted : Site.Reaches edits ⟨bare, none⟩
      ⟨bare, some ((Instance.fresh.pass .standard {}).rest SiteStep.sparseAnswer)⟩ := by
    refine hstart.answer hlist ⟨rfl, fun d _ => ?_⟩
    simp [bare]
  refine hlisted.answer hcreate ?_
  exact ⟨⟨Machine.first, rfl, rfl, rfl, rfl, rfl⟩, rfl, rfl⟩

/-- The run makes one device, and loses none. -/
theorem Instance.one_device_fresh : ∃ y : Situation SiteStep SiteStep.Answer Site
      (Except Failure Followup × InstanceMemory),
    Site.Reaches Instance.KeepsSpec ⟨bare, none⟩ y ∧ y.world.made = ["device-1"] ∧
      y.world.made.length ≤ y.world.lost.length + 1 := by
  refine ⟨_, reaches_first, rfl, ?_⟩
  exact (Instance.one_device rfl reaches_first).1

/-! ## What is left at removal -/

/-- Any edit is allowed. -/
def Instance.EditsFreely (_ _ : Instance) : Prop := True

theorem Site.upholds_tracked : (outside edits).Upholds Begins
    (fun t w => ∃ project, t.Proper project w) Tracked where
  drift _ _ hd h := h.drift hd
  call h hp ha := hp.elim fun _ hp => h.step hp ha
  begin := by
    rintro w p h ⟨s, m, rfl⟩
    exact Instance.pass_safe.mono (fun t w hp => ⟨_, hp⟩) fun _ _ h => h

/-- Along every run of passes over an Instance that starts without status, when the finalizer is
about to be removed, a device that passes have created is still there exactly if it is not the
recorded one and did not vanish by itself. So a device is left behind exactly if its id never
reached the status. -/
theorem Instance.left_at_removal {i : Instance} (hi : i.status = none)
    {machines : String → Option Machine} {n : String}
    {y : Situation SiteStep SiteStep.Answer Site (Except Failure Followup × InstanceMemory)}
    (hr : Site.Reaches edits ⟨⟨i, machines, [], []⟩, none⟩ y)
    (hy : y.Sends (.cluster (.removeFinalizer n))) :
    ∀ id ∈ y.world.made,
      (y.world.Has id ↔ y.world.object.deviceId? ≠ some id ∧ id ∉ y.world.lost) := by
  have htracked : y.world.Tracked := (upholds_tracked.run hr (tracked_new hi machines) rfl).1
  obtain ⟨project, -, hreleased⟩ :=
    upholds_tracked.permitted hr (tracked_new hi machines) rfl hy
  intro id hid
  refine ⟨fun hhas => ⟨fun hrec => hreleased id hid hrec hhas, fun hlost => ?_⟩, fun h => ?_⟩
  · exact htracked.vanished id hlost hhas
  · by_contra hgone
    rcases htracked.accounted id hid hgone with hlost | hrec
    · exact h.2 hlost
    · exact h.1 hrec

/-- The Instance while it is being deleted. -/
def Instance.freshDeleted : Instance :=
  let m := Instance.fresh.metadata
  { Instance.fresh with metadata := { m with deletionTimestamp := some .epoch } }

/-- The site when the Instance is being deleted and its device was never recorded. -/
def Site.forgotten : Site := { Site.first with object := Instance.freshDeleted }

/-- The device is not recorded because the write fails, the Instance is deleted, and the next pass
deletes the Node and is about to remove the finalizer. -/
theorem reaches_forgotten :
    ∃ p, Site.Reaches Instance.EditsFreely ⟨bare, none⟩ ⟨forgotten, some p⟩ ∧
      p.first? = some (.cluster (.removeFinalizer "metal-1")) := by
  have hwrite : Instance.recording.first? = some (.cluster (.writeStatus "metal-1"
      { phase := .submitted, instanceId := some "device-1", deviceState := some "queued" })) := rfl
  have hfailed : Site.Reaches Instance.EditsFreely ⟨bare, none⟩
      ⟨first, some (Instance.recording.rest SiteStep.sparseAnswer)⟩ :=
    reaches_first.answer hwrite (.inl rfl)
  have hdeleted : Site.Reaches Instance.EditsFreely ⟨bare, none⟩ ⟨forgotten, none⟩ :=
    (hfailed.tail .stop).tail (.drift (.edit rfl rfl trivial))
  have hremoval : Site.Reaches Instance.EditsFreely ⟨bare, none⟩
      ⟨forgotten, some (Instance.freshDeleted.pass .standard {})⟩ := hdeleted.tail (.begin ⟨.standard, {}, rfl⟩)
  have hnode : (Instance.freshDeleted.pass .standard {}).first? =
      some (.cluster (.deleteNode "metal-1")) := rfl
  exact ⟨(Instance.freshDeleted.pass .standard {}).rest SiteStep.sparseAnswer,
    hremoval.answer hnode rfl, rfl⟩

/-- A run removes the finalizer while a device that it made is there. -/
theorem Instance.device_left_at_removal :
    ∃ y : Situation SiteStep SiteStep.Answer Site (Except Failure Followup × InstanceMemory),
      Site.Reaches Instance.EditsFreely ⟨bare, none⟩ y ∧
      y.Sends (.cluster (.removeFinalizer "metal-1")) ∧ ∃ id ∈ y.world.made, y.world.Has id := by
  obtain ⟨p, hr, hp⟩ := reaches_forgotten
  refine ⟨_, hr, Situation.sends_of_first? hp, "device-1", .head _, Machine.first, ?_, rfl⟩
  rfl

/-- The device of that run is left because it is neither recorded nor lost. -/
theorem Instance.left_at_removal_forgotten :
    ∃ y : Situation SiteStep SiteStep.Answer Site (Except Failure Followup × InstanceMemory),
      Site.Reaches Instance.EditsFreely ⟨bare, none⟩ y ∧
      y.Sends (.cluster (.removeFinalizer "metal-1")) ∧
      (y.world.Has "device-1" ↔
        y.world.object.deviceId? ≠ some "device-1" ∧ "device-1" ∉ y.world.lost) := by
  obtain ⟨p, hr, hp⟩ := reaches_forgotten
  have hsends := Situation.sends_of_first? (w := forgotten) hp
  exact ⟨_, hr, hsends, Instance.left_at_removal rfl hr hsends "device-1" (.head _)⟩

end BareMetal
