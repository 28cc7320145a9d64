import BareMetal.Proofs.Instance.Life

/-!
# Reinstalls

A reinstall is accepted by the service and recorded by a change of the phase, in this order and by
two calls, so it can go unrecorded. What is counted here is how many reinstalls the service accepts
along a run: the device is asked for one only while the phase is that of a device being provisioned,
so that one more is accepted than go unrecorded, at most. A reinstall that is over leaves no other
mark than the phase, and so one that went unrecorded is repeated.
-/

open Relation

namespace BareMetal

/-! ## Reinstalls are counted -/

/-- A site with the number of reinstalls that the service has accepted there, and of those of them
that are not recorded. -/
structure Ledger where
  site : Site
  accepted : Nat := 0
  unrecorded : Nat := 0

namespace Ledger

/-- The stored Instance. -/
abbrev object (l : Ledger) : Instance := l.site.object

/-- The site changes. If the phase turns to that of a reinstall, one is recorded. -/
def turn (l : Ledger) (w : Site) : Ledger :=
  let records := l.object.phase ≠ .reinstalling ∧ w.object.phase = .reinstalling
  { l with site := w, unrecorded := if records then l.unrecorded - 1 else l.unrecorded }

/-- The service accepts a reinstall. -/
def accept (l : Ledger) (w : Site) : Ledger :=
  { site := w, accepted := l.accepted + 1, unrecorded := l.unrecorded + 1 }

/-- The step can be answered so, and lead from the first ledger to the second. A reinstall counts as
accepted when it takes effect, even if the answer does not tell. -/
def Answers (l : Ledger) : (t : SiteStep) → t.Answer → Ledger → Prop
  | .request (.reinstall id), .ok _, l' =>
    ∃ w, (DeviceRequest.reinstall id).Takes l.site w ∧ l' = l.accept w
  | .request (.reinstall id), .error _, l' =>
    l' = l ∨ ∃ w, (DeviceRequest.reinstall id).Takes l.site w ∧ l' = l.accept w
  | t, a, l' => ∃ w, t.Answers l.site a w ∧ l' = l.turn w

/-- The outside of passes over an Instance that is edited only so. -/
def outside (edits : Instance → Instance → Prop) : Outside SiteStep SiteStep.Answer Ledger where
  answers t l := l.Answers t
  drifts l l' := Site.Drifts edits l.site l'.site ∧ l' = l.turn l'.site

/-- A pass begins on the stored Instance, with any settings and any memory. -/
def Begins (l : Ledger)
    (p : Program SiteStep SiteStep.Answer (Except Failure Followup × InstanceMemory)) : Prop :=
  Site.Begins l.site p

/-- Runs of passes over one Instance. -/
def Reaches (edits : Instance → Instance → Prop) := (outside edits).Reaches Begins

variable {edits : Instance → Instance → Prop} {l l' : Ledger} {w : Site}

/-- What a step does at the site, and what is counted. -/
theorem Answers.cases {t : SiteStep} {a : t.Answer} (h : l.Answers t a l') :
    l' = l ∨ (∃ id w, t = .request (.reinstall id) ∧ (DeviceRequest.reinstall id).Takes l.site w ∧
      l' = l.accept w) ∨ ∃ w, t.Answers l.site a w ∧ l' = l.turn w := by
  cases t with
  | cluster | announce | clock => exact .inr (.inr h)
  | request r =>
    cases r with
    | reinstall id =>
      cases a with
      | ok => exact .inr (.inl ⟨id, h.choose, rfl, h.choose_spec⟩)
      | error => exact h.imp_right fun h => .inl ⟨id, h.choose, rfl, h.choose_spec⟩
    | create | get | list | update | delete | changePort => exact .inr (.inr h)

theorem Answers.site {t : SiteStep} {a : t.Answer} (h : l.Answers t a l') :
    t.Answers l.site a l'.site := by
  have of_turn (h : ∃ w, t.Answers l.site a w ∧ l' = l.turn w) : t.Answers l.site a l'.site := by
    obtain ⟨w, ha, rfl⟩ := h
    exact ha
  cases t with
  | cluster | announce | clock => exact of_turn h
  | request r =>
    cases r with
    | reinstall id =>
      cases a with
      | ok =>
        obtain ⟨w, ht, rfl⟩ := h
        exact ⟨ht, trivial⟩
      | error f =>
        rcases h with rfl | ⟨w, ht, rfl⟩
        · exact ⟨.inl rfl, trivial⟩
        · exact ⟨.inr ht, trivial⟩
    | create | get | list | update | delete | changePort => exact of_turn h

end Ledger

/-! ## When a reinstall is asked for -/

/-- A timely step: the record goes forward, and a device is reinstalled only while its provisioning
is what the record says. -/
def SiteStep.Timely (i : Instance) : SiteStep → Prop
  | .cluster c => InstanceStep.Orderly false i (.cluster c)
  | .request (.reinstall _) => i.phase = .submitted
  | .request _ | .announce _ | .clock => True

/-- What all requests satisfy that reinstall nothing is satisfied by the requests of a call, unless it
reconfigures a device. -/
theorem DeviceCall.only_requests {P : DeviceRequest → Prop} (s : Settings) (c : DeviceCall)
    (hP : ∀ r, (∀ id, r ≠ .reinstall id) → P r)
    (hreconfigure : ∀ k i, c = .reconfigure k i → ∀ r, P r) : (c.requests s).1.run.Only P := by
  cases c with
  | find | create | status =>
    -- one request, and what is made of its answer
    refine ⟨hP _ nofun, fun r => ?_⟩
    cases r <;> trivial
  | reconfigure c i => exact Program.only_of_forall (hreconfigure c i rfl) _
  | delete =>
    refine ⟨hP _ nofun, fun r => ?_⟩
    cases r with
    | ok => trivial
    | error f =>
      show ((if f.isAbsent then pure () else throw f : Provisioning Unit).run).Only P
      split <;> trivial

/-! ## The record as it is seen from passes -/

theorem Site.Drifts.edited {edits : Instance → Instance → Prop} {w w' : Site} (h : Drifts edits w w') :
    Instance.Edited false w.object w'.object :=
  ⟨h.name, h.status, nofun, nofun⟩

theorem InstanceCall.Takes.alters {c : InstanceCall} {w w' : Site} (h : c.Takes w w') :
    c.Alters w.object w'.object := by
  cases c with
  | deleteInstance =>
    obtain ⟨t, rfl⟩ := h
    exact ⟨t, rfl⟩
  | writeStatus | addFinalizer | removeFinalizer | getNode | deleteNode => exact congrArg Site.object h

section Seen

variable {edits : Instance → Instance → Prop} {l l' : Ledger} {s : Settings}

/-- What passes meet of the record, if any call can fail. -/
abbrev recordOutside : Outside InstanceStep InstanceStep.Answer Instance :=
  Instance.outside false fun _ => True

theorem SiteStep.Answers.object_of_request {r : DeviceRequest} {a : r.Answer} {w w' : Site}
    (h : SiteStep.Answers w (.request r) a w') : w'.object = w.object := by
  cases a with
  | ok => exact h.1.frame.1
  | error => exact h.1.elim (congrArg Site.object) fun ht => ht.frame.1

/-- A step that is one call at the site is carried out as it is seen. -/
theorem Ledger.safe_once {t : InstanceStep} (d : SiteStep) (out : d.Answer → t.Answer)
    (hpermit : ∀ l : Ledger, t.Orderly false l.object → d.Timely l.object)
    (hanswer : ∀ w a w', d.Answers w a w' → recordOutside.answers t w.object (out a) w'.object)
    (ht : ∀ i, ReflTransGen recordOutside.drifts l.object i → t.Orderly false i) :
    (Program.perform d : Program SiteStep SiteStep.Answer d.Answer).Safe (outside edits)
      (fun t l => t.Timely l.object) (fun a l' => ∃ i,
        ReflTransGen recordOutside.drifts l.object i ∧ recordOutside.answers t i (out a) l'.object) l :=
  Program.safe_perform_seen (fun t i => t.Orderly false i) Ledger.object out
    (fun _ _ hd => hd.1.edited) hpermit
    (fun _ a _ ha => hanswer _ a _ (Answers.site ha)) ht

/-- The requests of a call are timely if it may reconfigure a device, and leave the record alone. -/
theorem DeviceCall.safe_requests (c : DeviceCall)
    (hc : ∀ k i, c = .reconfigure k i → l.object.phase = .submitted) :
    ((c.requests s).1.run.lower DeviceRequest.spelled).Safe (Ledger.outside edits)
      (fun t l => t.Timely l.object) (fun _ l' => Instance.Edited false l.object l'.object) l := by
  have hkeeps : (Ledger.outside edits).Keeps fun l' => Instance.Edited false l.object l'.object :=
    fun _ _ hd h => h.trans hd.1.edited
  have hrequests : (c.requests s).1.run.Only fun r =>
      (∃ id, r = .reinstall id) → l.object.phase = .submitted :=
    c.only_requests s (fun r hr ⟨id, hid⟩ => absurd hid (hr id)) fun k i hki _ _ => hc k i hki
  have honly : ((c.requests s).1.run.lower DeviceRequest.spelled).Only fun t =>
      ∃ r, t = .request r ∧ ((∃ id, r = .reinstall id) → l.object.phase = .submitted) :=
    hrequests.lower fun r hr => ⟨⟨r, rfl, hr⟩, fun _ => trivial⟩
  refine honly.safe hkeeps ?_ (.refl _)
  rintro _ l₁ ⟨r, rfl, hr⟩ h
  refine ⟨?_, fun a l₂ ha => ?_⟩
  · cases r with
    | reinstall id => exact h.phase.trans (hr ⟨id, rfl⟩)
    | create | get | list | update | delete | changePort => trivial
  · have hobject : l₂.object = l₁.object := (Ledger.Answers.site ha).object_of_request
    exact hobject ▸ h

/-- A step is carried out in a timely way if it is orderly, and is answered as the record allows. -/
theorem InstanceStep.safe_spelled {t : InstanceStep}
    (ht : ∀ i, ReflTransGen recordOutside.drifts l.object i → t.Orderly false i) :
    (t.spelled s).Safe (Ledger.outside edits) (fun t l => t.Timely l.object)
      (fun r l' => ∃ i, ReflTransGen recordOutside.drifts l.object i ∧
        recordOutside.answers t i r l'.object) l := by
  cases t with
  | cluster c =>
    refine Ledger.safe_once (.cluster c) id (fun _ h => h) (fun w a w' ha => ?_) ht
    cases a with
    | ok => exact InstanceCall.Takes.alters ha
    | error => exact ⟨trivial, ha.imp (congrArg Site.object) InstanceCall.Takes.alters⟩
  | announce e =>
    refine Ledger.safe_once (.announce e) id (fun _ _ => trivial) (fun w _ w' ha => ?_) ht
    exact congrArg Site.object ha
  | clock =>
    refine Ledger.safe_once .clock id (fun _ _ => trivial) (fun w _ w' ha => ?_) ht
    exact congrArg Site.object ha
  | device c =>
    have hc (k : Credentials) (i : Instance) (hki : c = .reconfigure k i) : l.object.phase = .submitted := by
      subst hki
      exact ht _ .refl
    refine Program.Safe.bind ((c.safe_requests hc).mono (fun _ _ h => h) fun r l' h => ?_)
    -- what others have edited meanwhile comes before the answer
    refine ⟨l'.object, .single h, ?_⟩
    cases r with
    | ok => exact ⟨nofun, rfl⟩
    | error => exact ⟨trivial, rfl⟩

/-- A pass over the stored Instance takes only timely steps. -/
theorem Instance.pass_timely {m : InstanceMemory} (h : l.object.Recorded false) :
    (l.object.pass s m).Safe (Ledger.outside edits) (fun t l => t.Timely l.object) (fun _ _ => True) l :=
  (Program.Safe.lower (fun _ _ ht => InstanceStep.safe_spelled ht) (reconcile_safe h)).mono
    (fun _ _ h => h) fun _ _ _ => trivial

/-- A pass over the stored Instance takes only proper steps, whatever is counted. -/
theorem Instance.pass_proper {m : InstanceMemory} :
    (l.object.pass s m).Safe (Ledger.outside edits)
      (fun t l' => t.Proper l.object.spec.projectId l'.site) (fun _ _ => True) l := by
  have hstep (t : SiteStep) (l₁ : Ledger)
      (ht : ∀ w, ReflTransGen (Site.outside edits).drifts l₁.site w → t.Proper l.object.spec.projectId w) :
      (Program.perform t : Program SiteStep SiteStep.Answer t.Answer).Safe (Ledger.outside edits)
        (fun t l' => t.Proper l.object.spec.projectId l'.site) (fun a l' => ∃ w,
          ReflTransGen (Site.outside edits).drifts l₁.site w ∧ (Site.outside edits).answers t w a l'.site) l₁ :=
    Program.safe_perform_seen (SiteStep.Proper l.object.spec.projectId) Ledger.site id
      (fun _ _ hd => hd.1) (fun _ h => h) (fun _ _ _ ha => Ledger.Answers.site ha) ht
  have hsafe := Program.Safe.lower hstep (pass_safe (w := l.site) (s := s) (m := m))
  rwa [Program.lower_perform] at hsafe

end Seen

/-! ## The count along a run -/

namespace Ledger

variable {edits : Instance → Instance → Prop} {l l' : Ledger} {w : Site}

/-- As long as no reinstall is recorded, the accepted ones are all unrecorded; at most one is
recorded. -/
structure Counted (l : Ledger) : Prop where
  record : l.object.Recorded false
  waiting : l.object.phase = .empty ∨ l.object.phase = .submitted → l.accepted = l.unrecorded
  bound : l.accepted ≤ l.unrecorded + 1

theorem Counted.accept (h : l.Counted) (hphase : l.object.phase = .submitted)
    (hobject : w.object = l.object) : (l.accept w).Counted where
  record := show w.object.Recorded false from hobject ▸ h.record
  waiting _ := congrArg (· + 1) (h.waiting (.inr hphase))
  bound := Nat.succ_le_succ h.bound

theorem Counted.turn (h : l.Counted) (hrecord : w.object.Recorded false)
    (hphase : w.object.phase = l.object.phase ∨ l.object.phase.next? = some w.object.phase) :
    (l.turn w).Counted := by
  -- the phase never goes back, and only the phase before it leads to that of a reinstall
  have hback (hw : w.object.phase = .empty ∨ w.object.phase = .submitted) :
      l.object.phase = .empty ∨ l.object.phase = .submitted := by
    rcases hphase with hsame | hnext
    · exact hsame ▸ hw
    · cases hl : l.object.phase <;> rcases hw with hw | hw <;> simp [hl, hw, InstancePhase.next?] at hnext ⊢
  have hturns (hl : l.object.phase ≠ .reinstalling) (hw : w.object.phase = .reinstalling) :
      l.object.phase = .submitted := by
    have hnext := hphase.resolve_left fun hsame => hl (hsame ▸ hw)
    cases hl : l.object.phase <;> simp [hl, hw, InstancePhase.next?] at hnext ⊢
  refine ⟨hrecord, fun (hw : w.object.phase = .empty ∨ w.object.phase = .submitted) => ?_, ?_⟩
  · have hnot : w.object.phase ≠ .reinstalling := by rcases hw with hw | hw <;> simp [hw]
    simpa [Ledger.turn, hnot] using h.waiting (hback hw)
  · by_cases hrecords : l.object.phase ≠ .reinstalling ∧ w.object.phase = .reinstalling
    · -- one is recorded, and up to now all were unrecorded
      have heq := h.waiting (.inr (hturns hrecords.1 hrecords.2))
      simp only [Ledger.turn, if_pos hrecords]
      omega
    · simpa only [Ledger.turn, if_neg hrecords] using h.bound

theorem Counted.step {t : SiteStep} {a : t.Answer} (h : l.Counted) (hp : t.Timely l.object)
    (ha : l.Answers t a l') : l'.Counted := by
  obtain rfl | ⟨id, w, rfl, ht, rfl⟩ | ⟨w, hw, rfl⟩ := ha.cases
  · exact h
  · exact h.accept hp ht.frame.1
  · obtain rfl | ⟨c, rfl, ht⟩ | ⟨r, rfl, ht⟩ := hw.cases
    · exact h.turn h.record (.inl rfl)
    · exact h.turn (h.record.call hp ht.alters) (Instance.Recorded.phase_call hp ht.alters)
    · exact h.turn (ht.frame.1 ▸ h.record) (.inl (congrArg Instance.phase ht.frame.1))

theorem upholds_counted : (outside edits).Upholds Begins
    (fun t l => t.Timely l.object ∧ ∃ project, t.Proper project l.site) Counted where
  drift l l' hd h := by
    -- others leave the status alone, and so record nothing
    rw [hd.2]
    exact h.turn (h.record.edited hd.1.edited) (.inl hd.1.edited.phase)
  call h hp ha := h.step hp.1 ha
  begin := by
    rintro l p h ⟨s, m, rfl⟩
    exact ((Instance.pass_timely h.record).and Instance.pass_proper).mono
      (fun _ _ hp => ⟨hp.1, _, hp.2⟩) fun _ _ _ => trivial

end Ledger

/-- Along every run of passes over an Instance, calls may fail with or without having taken effect and
passes may be dropped anywhere: one more reinstall is accepted than go unrecorded, at most. When a
reinstall is asked for, the device is being provisioned as far as the record says, it has nothing in
progress, and all the reinstalls that were accepted before went unrecorded. -/
theorem Instance.reinstalls_bounded {edits : Instance → Instance → Prop} {i : Instance}
    (hi : i.Recorded false) {machines : String → Option Machine}
    {y : Situation SiteStep SiteStep.Answer Ledger (Except Failure Followup × InstanceMemory)}
    (hr : Ledger.Reaches edits ⟨⟨⟨i, machines, [], []⟩, 0, 0⟩, none⟩ y) :
    y.world.accepted ≤ y.world.unrecorded + 1 ∧
    ∀ id, y.Sends (.request (.reinstall id)) → y.world.object.phase = .submitted ∧
      y.world.site.Quiet id ∧ y.world.accepted = y.world.unrecorded := by
  have hnew : Ledger.Counted ⟨⟨i, machines, [], []⟩, 0, 0⟩ := ⟨hi, fun _ => rfl, Nat.zero_le _⟩
  have hy : y.world.Counted := (Ledger.upholds_counted.run hr hnew rfl).1
  refine ⟨hy.bound, fun id hid => ?_⟩
  obtain ⟨hphase, project, hquiet⟩ := Ledger.upholds_counted.permitted hr hnew rfl hid
  exact ⟨hphase, hquiet, hy.waiting (.inr hphase)⟩

/-! ## A reinstall that is repeated -/

namespace Machine

/-- The device with the boot settings that were asked for. -/
def booting (m : Machine) (c : BootChange) : Machine :=
  let script := c.ipxeScriptUrl <|> m.device.ipxeScriptUrl
  let userdata := c.userdata <|> m.device.userdata
  { m with device := { m.device with ipxeScriptUrl := script, userdata := userdata } }

/-- The device while it is being reinstalled. -/
def restarted (m : Machine) : Machine where
  project := m.project
  device := { m.device with state := "reinstalling" }
  reinstalling := true
  gone := m.gone
  busy _ := rfl

/-- The device when its reinstall is over. -/
def restored (m : Machine) : Machine where
  project := m.project
  device := { m.device with state := "active" }
  gone := m.gone

/-- What becomes of devices when the reinstall of one comes to its end. -/
def restoredAt (id k : String) (m : Machine) : Machine :=
  if k = id ∧ m.reinstalling = true then m.restored else m

theorem becomes_restoredAt {id : String} (k : String) (m : Machine) : m.Becomes (restoredAt id k m) := by
  unfold restoredAt
  split
  · exact ⟨⟨rfl, rfl, rfl, rfl, nofun⟩, nofun⟩
  · exact ⟨⟨rfl, rfl, rfl, rfl, fun h => h⟩, fun h => h⟩

end Machine

/-- What is asked of a device is done as it is asked. -/
def DeviceRequest.Heeded (w w' : Site) : DeviceRequest → Prop
  | .update id change => w'.machines = Function.update w.machines id ((w.machines id).map (·.booting change))
  | .reinstall id => w'.machines = Function.update w.machines id ((w.machines id).map (·.restarted))
  | .create .. | .get _ | .list _ | .delete _ | .changePort .. => True

namespace Ledger

/-- A request does what it asks for, or nothing. -/
def Heeds (t : SiteStep) (l : Ledger) (_ : t.Answer) (l' : Ledger) : Prop :=
  ∀ r, t = .request r → l'.site.machines = l.site.machines ∨ r.Heeded l.site l'.site

/-- By itself, nothing happens but that the reinstall of a device comes to its end. -/
def Restores (l l' : Ledger) : Prop :=
  ∃ id, l'.site = l.site.move (Machine.restoredAt id)

/-- The outside of passes over an Instance that nobody edits, with a service that keeps its word. -/
def faithful : Outside SiteStep SiteStep.Answer Ledger := (outside fun _ _ => False).restrict Heeds Restores

end Ledger

/-- The Instance, with a device that is being provisioned as far as the record says. -/
def Instance.provisioned : Instance :=
  let status : InstanceStatus :=
    { phase := .submitted, instanceId := some "device-1", deviceState := some "queued" }
  { Instance.fresh with status := some status }

/-- The userdata with which the device boots its final system. -/
def Device.finalUserdata : String :=
  (({} : Boot.Document).withManagement ["00:00:5e:00:53:01"] ∅).render

/-- The device, which runs and has its final boot settings. -/
def Device.provisioned : Device where
  id := "device-1"
  hostname := "metal-1"
  state := "active"
  ipxeScriptUrl := some Settings.standard.ipxeScriptUrl
  userdata := some Device.finalUserdata
  ports := [{ id := "port-1", name := "eth0", data := { mac := some "00:00:5e:00:53:01" } }]

/-- The device as the service knows it. -/
def Machine.provisioned : Machine where
  project := "lab"
  device := Device.provisioned

/-- The site of the two. -/
def Site.provisioned : Site where
  object := Instance.provisioned
  machines := Function.update (fun _ => none) "device-1" (some Machine.provisioned)

/-- The site while the device is being reinstalled. -/
def Site.restarted : Site := Site.provisioned.place "device-1" Machine.provisioned.restarted

/-- Answers of a service that does what it is asked to, and of a cluster that does not get to write a
status. -/
def SiteStep.restartAnswer : (t : SiteStep) → t.Answer
  | .cluster (.writeStatus ..) => .error (.cluster (.unavailable "timeout"))
  | .cluster (.getNode _) => .ok none
  | .cluster (.addFinalizer _) | .cluster (.removeFinalizer _) | .cluster (.deleteInstance _)
  | .cluster (.deleteNode _) => .ok ()
  | .request (.list _) => .ok [Device.provisioned]
  | .request (.get _) => .ok (some Device.provisioned)
  | .request (.create ..) | .request (.update ..) => .ok Device.provisioned
  | .request (.reinstall _) | .request (.delete _) => .ok ()
  | .request (.changePort ..) => .ok {}
  | .announce _ => ()
  | .clock => .epoch

namespace Ledger

/-- A pass that has seen the device, and is about to ask for a reinstall. -/
def asking : Program SiteStep SiteStep.Answer (Except Failure Followup × InstanceMemory) :=
  ((Instance.provisioned.pass .standard {}).rest SiteStep.restartAnswer).rest SiteStep.restartAnswer

set_option maxRecDepth 1500 in
/-- When the reinstall is accepted, it is recorded next. -/
theorem asking_eq : ∃ next, asking = .call (.request (.reinstall "device-1")) next ∧
    (next (.ok ())).first? = some (.cluster (.writeStatus "metal-1"
      { phase := .reinstalling, instanceId := some "device-1", deviceState := some "active" })) := by
  refine ⟨_, rfl, ?_⟩
  rfl

/-- The reinstall comes to its end, and nothing tells of it. -/
theorem move_restarted : Site.restarted.move (Machine.restoredAt "device-1") = Site.provisioned := by
  have hmachines : (fun k => (Site.restarted.machines k).map (Machine.restoredAt "device-1" k)) =
      Site.provisioned.machines := by
    funext k
    by_cases hk : k = "device-1"
    · subst hk
      rfl
    · simp [Site.restarted, Site.place, Site.provisioned, hk]
  rw [Site.move, hmachines]
  rfl

/-- A pass comes to ask for a reinstall. -/
theorem reaches_asking (n : Nat) : faithful.Reaches Begins ⟨⟨Site.provisioned, n, n⟩, none⟩
    ⟨⟨Site.provisioned, n, n⟩, some asking⟩ := by
  have hbegin : faithful.Reaches Begins ⟨⟨Site.provisioned, n, n⟩, none⟩
      ⟨⟨Site.provisioned, n, n⟩, some (Instance.provisioned.pass .standard {})⟩ :=
    .single (.begin ⟨.standard, {}, rfl⟩)
  have hget : faithful.answers (.request (.get "device-1")) ⟨Site.provisioned, n, n⟩
      (.ok (some Device.provisioned)) ⟨Site.provisioned, n, n⟩ :=
    ⟨⟨_, ⟨rfl, rfl⟩, rfl⟩, fun _ _ => .inl rfl⟩
  have hpolled : faithful.Reaches Begins ⟨⟨Site.provisioned, n, n⟩, none⟩
      ⟨⟨Site.provisioned, n, n⟩, some ((Instance.provisioned.pass .standard {}).rest SiteStep.restartAnswer)⟩ :=
    hbegin.answer rfl hget
  exact hpolled.answer rfl hget

/-- A reinstall is accepted and not recorded, and comes to its end. -/
theorem reaches_again (n : Nat) : faithful.Reaches Begins ⟨⟨Site.provisioned, n, n⟩, none⟩
    ⟨⟨Site.provisioned, n + 1, n + 1⟩, none⟩ := by
  have hasked := reaches_asking n
  obtain ⟨next, hasking, hwrite⟩ := asking_eq
  rw [hasking] at hasked
  have haccepted : faithful.answers (.request (.reinstall "device-1")) ⟨Site.provisioned, n, n⟩ (.ok ())
      ⟨Site.restarted, n + 1, n + 1⟩ := by
    have hrestarts : Machine.provisioned.Restarts Machine.provisioned.restarted := ⟨rfl, rfl, rfl, rfl, nofun⟩
    refine ⟨⟨_, ⟨Machine.provisioned, _, rfl, rfl, hrestarts, rfl, rfl⟩, rfl⟩, ?_⟩
    rintro r ⟨⟩
    exact .inr rfl
  have hfailed : faithful.answers (.cluster (.writeStatus "metal-1"
        { phase := .reinstalling, instanceId := some "device-1", deviceState := some "active" }))
      ⟨Site.restarted, n + 1, n + 1⟩ (.error (.cluster (.unavailable "timeout")))
      ⟨Site.restarted, n + 1, n + 1⟩ :=
    ⟨⟨_, .inl rfl, rfl⟩, fun _ _ => .inl rfl⟩
  have hunrecorded : faithful.Reaches Begins ⟨⟨Site.provisioned, n, n⟩, none⟩
      ⟨⟨Site.restarted, n + 1, n + 1⟩, some ((next (.ok ())).rest SiteStep.restartAnswer)⟩ :=
    Outside.Reaches.answer (hasked.tail (.call haccepted)) hwrite hfailed
  have hrestores : faithful.drifts ⟨Site.restarted, n + 1, n + 1⟩ ⟨Site.provisioned, n + 1, n + 1⟩ :=
    ⟨⟨move_restarted ▸ .move Machine.becomes_restoredAt, rfl⟩, "device-1", move_restarted.symm⟩
  exact (hunrecorded.tail .stop).tail (.drift hrestores)

/-- The device is reinstalled any number of times. -/
theorem reaches_repeated (n : Nat) : faithful.Reaches Begins ⟨⟨Site.provisioned, 0, 0⟩, none⟩
    ⟨⟨Site.provisioned, n, n⟩, none⟩ := by
  induction n with
  | zero => exact .refl
  | succ n ih => exact ih.trans (reaches_again n)

end Ledger

/-- A run accepts two reinstalls of one device, although the service keeps its word. -/
theorem Instance.reinstalls_twice :
    ∃ y : Situation SiteStep SiteStep.Answer Ledger (Except Failure Followup × InstanceMemory),
      Ledger.faithful.Reaches Ledger.Begins ⟨⟨Site.provisioned, 0, 0⟩, none⟩ y ∧
        y.world.object.isDeleting = false ∧ y.world.accepted = 2 :=
  ⟨_, Ledger.reaches_repeated 2, rfl, rfl⟩

/-- In that run, the second reinstall is asked for while the first one is over and unrecorded. -/
theorem Instance.reinstalls_bounded_again :
    ∃ y : Situation SiteStep SiteStep.Answer Ledger (Except Failure Followup × InstanceMemory),
      Ledger.Reaches (fun _ _ => False) ⟨⟨Site.provisioned, 0, 0⟩, none⟩ y ∧
        y.Sends (.request (.reinstall "device-1")) ∧ y.world.accepted = 1 ∧
        y.world.accepted ≤ y.world.unrecorded + 1 ∧ y.world.object.phase = .submitted ∧
        y.world.site.Quiet "device-1" ∧ y.world.accepted = y.world.unrecorded := by
  have hrecorded : Instance.provisioned.Recorded false := by
    rintro st ⟨⟩
    exact ⟨nofun, "device-1", nofun, rfl⟩
  have hasked : Ledger.Reaches (fun _ _ => False) ⟨⟨Site.provisioned, 0, 0⟩, none⟩
      ⟨⟨Site.provisioned, 1, 1⟩, some Ledger.asking⟩ :=
    Outside.Reaches.of_restrict ((Ledger.reaches_repeated 1).trans (Ledger.reaches_asking 1))
  obtain ⟨next, hnext, -⟩ := Ledger.asking_eq
  have hsends : Situation.Sends ⟨(⟨Site.provisioned, 1, 1⟩ : Ledger), some Ledger.asking⟩
      (.request (.reinstall "device-1")) := ⟨next, congrArg some hnext⟩
  obtain ⟨hbound, hasks⟩ := Instance.reinstalls_bounded hrecorded hasked
  exact ⟨_, hasked, hsends, rfl, hbound, hasks _ hsends⟩

end BareMetal
