import BareMetal.Instance.Requests
import BareMetal.Proofs.Logic
import Mathlib.Logic.Function.Basic

/-!
# The outside of an Instance

What passes over one Instance meet: the stored Instance, and a service that owns devices. Calls
can be answered, or fail with or without having taken effect. Between calls the Instance can be
edited, devices move on, appear and vanish. Of the devices that passes have created, the site keeps
the ids, and the ids of those that vanished although no pass deleted them.
-/

namespace BareMetal

/-! ## Steps -/

/-- A step of a pass, with the requests to the service spelled out. -/
inductive SiteStep
  | cluster (c : InstanceCall)
  | request (r : DeviceRequest)
  | announce (e : Event)
  | clock

/-- What a step is answered with. -/
abbrev SiteStep.Answer : SiteStep → Type
  | cluster c => Except Failure c.Result
  | request r => r.Answer
  | announce _ => Unit
  | clock => Stamp

/-- A request as a step. -/
def DeviceRequest.spelled (r : DeviceRequest) : Program SiteStep SiteStep.Answer r.Answer :=
  Program.perform (SiteStep.request r)

/-- A step of a pass as steps that spell out the requests. -/
def InstanceStep.spelled (s : Settings) :
    (t : InstanceStep) → Program SiteStep SiteStep.Answer t.Answer
  | .cluster c => Program.perform (SiteStep.cluster c)
  | .device c => ((c.requests s).1.run.lower DeviceRequest.spelled).bind fun r =>
    .done (r.mapError (·.toFailure (c.requests s).2))
  | .announce e => Program.perform (SiteStep.announce e)
  | .clock => Program.perform SiteStep.clock

/-- One pass with its requests spelled out. -/
def Instance.pass (s : Settings) (m : InstanceMemory) (i : Instance) :
    Program SiteStep SiteStep.Answer (Except Failure Followup × InstanceMemory) :=
  ((i.reconcile s).run.run m).lower (InstanceStep.spelled s)

/-! ## Devices -/

/-- A device as the service knows it. A device that is being created is not settled, and one that
is being reinstalled says so. -/
structure Machine where
  project : String
  device : Device
  creating : Bool := false
  reinstalling : Bool := false
  gone : Bool := false
  unsettled : creating = true → device.deviceState.isSettled = false := by simp
  busy : reinstalling = true → device.deviceState = .reinstalling := by simp

/-- The first device can turn into the second when it is reinstalled. -/
structure Machine.Restarts (m m' : Machine) : Prop where
  id : m'.device.id = m.device.id
  project : m'.project = m.project
  hostname : m'.device.hostname = m.device.hostname
  gone : m'.gone = m.gone
  creating : m'.creating = true → m.creating = true

/-- The first device can turn into the second without being reinstalled: it can come to the end of
what is in progress. -/
structure Machine.Becomes (m m' : Machine) : Prop extends m.Restarts m' where
  reinstalling : m'.reinstalling = true → m.reinstalling = true

/-! ## Sites -/

/-- The outside of passes over one Instance. -/
structure Site where
  /-- The stored Instance. -/
  object : Instance
  /-- The devices that the service knows or knew, by id. -/
  machines : String → Option Machine := fun _ => none
  /-- The devices that passes have created, the latest first. -/
  made : List String := []
  /-- Those of them that vanished without being deleted by a pass. -/
  lost : List String := []

namespace Site

/-- The device exists. -/
def Has (w : Site) (id : String) : Prop := ∃ m, w.machines id = some m ∧ m.gone = false

/-- The device is known, and neither being created nor being reinstalled. -/
def Quiet (w : Site) (id : String) : Prop :=
  ∃ m, w.machines id = some m ∧ m.creating = false ∧ m.reinstalling = false

/-- None of the devices that passes have created exists in the project under the host name. -/
def Vacant (w : Site) (project hostname : String) : Prop :=
  ∀ id ∈ w.made, ∀ m, w.machines id = some m → m.project = project →
    m.device.hostname = hostname → m.gone = true

/-- The device with the id, as far as it exists. -/
def device? (w : Site) (id : String) : Option Device :=
  ((w.machines id).filter (!·.gone)).map (·.device)

/-- The devices of the project with the host name of the Instance are on the list, and no others
with that name. -/
def Lists (w : Site) (project : String) (ds : List Device) : Prop :=
  ∀ d, d.hostname = w.object.name → (d ∈ ds ↔
    ∃ id m, w.machines id = some m ∧ m.gone = false ∧ m.project = project ∧ m.device = d)

/-- Puts a device under an id. -/
def place (w : Site) (id : String) (m : Machine) : Site :=
  { w with machines := Function.update w.machines id (some m) }

/-- Lets every device change. -/
def move (w : Site) (f : String → Machine → Machine) : Site :=
  { w with machines := fun id => (w.machines id).map (f id) }

/-- Takes a device away. -/
def drop (w : Site) (id : String) : Site :=
  let left := (w.machines id).map fun m => { m with gone := true }
  { w with machines := Function.update w.machines id left }

/-- Edits the metadata of the Instance. -/
def editMetadata (w : Site) (f : Cluster.Metadata → Cluster.Metadata) : Site :=
  { w with object := { w.object with metadata := f w.object.metadata } }

end Site

/-! ## Calls that take effect -/

/-- A status written over an older one: what it does not mention stays. -/
def InstanceStatus.over (new : InstanceStatus) (old : Option InstanceStatus) : InstanceStatus where
  phase := new.phase
  instanceId := new.instanceId <|> old.bind (·.instanceId)
  deviceState := new.deviceState <|> old.bind (·.deviceState)
  publicIp := new.publicIp <|> old.bind (·.publicIp)
  privateIp := new.privateIp <|> old.bind (·.privateIp)

theorem Instance.statusOrNew_instanceId (i : Instance) :
    i.statusOrNew.instanceId = i.status.bind (·.instanceId) := by
  cases h : i.status <;> simp [Instance.statusOrNew, h]

theorem Instance.statusOrNew_phase (i : Instance) : i.statusOrNew.phase = i.phase := by
  cases h : i.status <;> simp [Instance.statusOrNew, Instance.phase, h]

/-- The call takes the first site to the second. -/
def InstanceCall.Takes (w w' : Site) : InstanceCall → Prop
  | .writeStatus _ st =>
    w' = { w with object := { w.object with status := some (st.over w.object.status) } }
  | .addFinalizer _ => w' = w.editMetadata fun m =>
    { m with finalizers := m.finalizersWith? Names.deprovision <|> m.finalizers }
  | .removeFinalizer _ => w' = w.editMetadata fun m =>
    { m with finalizers := some (m.finalizersWithout Names.deprovision) }
  | .deleteInstance _ => ∃ t, w' = w.editMetadata fun m => { m with deletionTimestamp := some t }
  | .getNode _ | .deleteNode _ => w' = w

namespace DeviceRequest

/-- The request takes the first site to the second. -/
def Takes (w w' : Site) : DeviceRequest → Prop
  | .create project hostname _ => ∃ m : Machine, m.project = project ∧
    m.device.hostname = hostname ∧ m.gone = false ∧ w.machines m.device.id = none ∧
    w' = { w.place m.device.id m with made := m.device.id :: w.made }
  | .get _ | .list _ => w' = w
  | .update .. | .changePort .. =>
    ∃ f : String → Machine → Machine, (∀ id m, Machine.Becomes m (f id m)) ∧ w' = w.move f
  | .reinstall id => ∃ m m' : Machine, w.machines id = some m ∧ m.gone = false ∧
    m.Restarts m' ∧ m'.reinstalling = true ∧ w' = w.place id m'
  | .delete id => w' = w.drop id

/-- The answer fits the request and what it did. -/
def Fits (w w' : Site) : (r : DeviceRequest) → r.Result → Prop
  | .create .., d => w.machines d.id = none ∧ w'.device? d.id = some d
  | .get id, d => d = w.device? id
  | .list project, ds => w.Lists project ds
  | .update .., _ | .changePort .., _ | .reinstall _, _ | .delete _, _ => True

/-- The failure fits the request: the service says of no device that exists that it does not. -/
def FitsFailure (w' : Site) (f : DeviceFailure) : DeviceRequest → Prop
  | .delete id => f.isAbsent = true → ¬w'.Has id
  | _ => True

end DeviceRequest

/-- The step, made at the first site, can be answered so and leave the second. -/
def SiteStep.Answers (w : Site) : (t : SiteStep) → t.Answer → Site → Prop
  | .cluster c, .ok _, w' => c.Takes w w'
  | .cluster c, .error _, w' => w' = w ∨ c.Takes w w'
  | .request r, .ok a, w' => r.Takes w w' ∧ r.Fits w w' a
  | .request r, .error f, w' => (w' = w ∨ r.Takes w w') ∧ r.FitsFailure w' f
  | .announce _, _, w' | .clock, _, w' => w' = w

/-! ## Sites that change by themselves -/

/-- How a site changes between the calls of passes. Whoever edits the Instance leaves its name and
its status alone, and edits it only as `edits` allows. -/
inductive Site.Drifts (edits : Instance → Instance → Prop) : Site → Site → Prop
  | edit {w i} : i.name = w.object.name → i.status = w.object.status → edits w.object i →
    Drifts edits w { w with object := i }
  | move {w} {f : String → Machine → Machine} : (∀ id m, Machine.Becomes m (f id m)) →
    Drifts edits w (w.move f)
  | arrive {w m} : w.machines m.device.id = none → m.device.id ∉ w.made →
    Drifts edits w (w.place m.device.id m)
  | leave {w id} : w.Has id →
    Drifts edits w { w.drop id with lost := if id ∈ w.made then id :: w.lost else w.lost }

namespace Site

/-- The outside of passes over an Instance that is edited only so. -/
def outside (edits : Instance → Instance → Prop) : Outside SiteStep SiteStep.Answer Site where
  answers t w := t.Answers w
  drifts := Drifts edits

/-- A pass begins on the stored Instance, with any settings and any memory. -/
def Begins (w : Site)
    (p : Program SiteStep SiteStep.Answer (Except Failure Followup × InstanceMemory)) : Prop :=
  ∃ s m, p = w.object.pass s m

/-- Runs of passes over one Instance. -/
def Reaches (edits : Instance → Instance → Prop) :=
  (outside edits).Reaches Begins

end Site

/-! ## What becomes of devices -/

/-- The first device can have turned into the second, whatever happened. -/
structure Machine.Ages (m m' : Machine) : Prop where
  project : m'.project = m.project
  hostname : m'.device.hostname = m.device.hostname
  gone : m.gone = true → m'.gone = true

theorem Machine.Ages.refl (m : Machine) : m.Ages m := ⟨rfl, rfl, id⟩

theorem Machine.Restarts.ages {m m' : Machine} (h : m.Restarts m') : m.Ages m' :=
  ⟨h.project, h.hostname, fun hm => h.gone.trans hm⟩

namespace Site

variable {edits : Instance → Instance → Prop} {w w' : Site} {id k : String} {m m' : Machine}

/-- The first site can have turned into the second, as far as devices are concerned: known ones stay
known, and under the id of one that a pass made no other appears. -/
structure Ages (w w' : Site) : Prop where
  forth : ∀ ⦃id m⦄, w.machines id = some m → ∃ m', w'.machines id = some m' ∧ m.Ages m'
  back : ∀ ⦃id m'⦄, id ∈ w.made → w'.machines id = some m' → ∃ m, w.machines id = some m

theorem Ages.origin (h : w.Ages w') (hid : id ∈ w.made) (hm : w'.machines id = some m') :
    ∃ m, w.machines id = some m ∧ m.Ages m' := by
  obtain ⟨m, hw⟩ := h.back hid hm
  obtain ⟨m'', hw', ha⟩ := h.forth hw
  rw [hm] at hw'
  cases hw'
  exact ⟨m, hw, ha⟩

theorem Ages.has (h : w.Ages w') (hid : id ∈ w.made) (hw : w'.Has id) : w.Has id := by
  obtain ⟨m', hm', hgone⟩ := hw
  obtain ⟨m, hm, ha⟩ := h.origin hid hm'
  refine ⟨m, hm, Bool.eq_false_iff.2 fun hg => ?_⟩
  simp [ha.gone hg] at hgone

theorem Ages.refl (w : Site) : w.Ages w := ⟨fun _ m h => ⟨m, h, .refl m⟩, fun _ m' _ h => ⟨m', h⟩⟩

theorem ages_of_machines (h : w'.machines = w.machines) : w.Ages w' :=
  ⟨fun _ m hm => ⟨m, h ▸ hm, .refl m⟩, fun _ m' _ hm => ⟨m', h ▸ hm⟩⟩

theorem ages_move {f : String → Machine → Machine} (hf : ∀ id m, Machine.Becomes m (f id m)) :
    w.Ages (w.move f) := by
  refine ⟨fun id m h => ⟨f id m, by simp [move, h], (hf id m).toRestarts.ages⟩, fun id m' _ h => ?_⟩
  obtain ⟨m, hm, -⟩ := Option.map_eq_some_iff.1 h
  exact ⟨m, hm⟩

theorem not_has_drop (w : Site) (id : String) : ¬(w.drop id).Has id := by
  rintro ⟨m', hm', hgone⟩
  obtain ⟨m, -, rfl⟩ := by simpa [drop] using hm'
  cases hgone

theorem ages_drop (w : Site) (id : String) : w.Ages (w.drop id) := by
  refine ⟨fun k m h => ?_, fun k m' _ h => ?_⟩
  · by_cases hk : k = id
    · subst hk
      exact ⟨{ m with gone := true }, by simp [drop, h], ⟨rfl, rfl, fun _ => rfl⟩⟩
    · exact ⟨m, by simp [drop, hk, h], .refl m⟩
  · by_cases hk : k = id
    · subst hk
      obtain ⟨m, hm, -⟩ := by simpa [drop] using h
      exact ⟨m, hm⟩
    · exact ⟨m', by simpa [drop, hk] using h⟩

/-- A device put under its id ages the site if it is the device that was there, or a new one. -/
theorem ages_place (h : ∀ m', w.machines id = some m' → m'.Ages m)
    (hid : w.machines id = none → id ∉ w.made) : w.Ages (w.place id m) := by
  refine ⟨fun k m' hm => ?_, fun k m' hk hm => ?_⟩
  · by_cases hk : k = id
    · subst hk
      exact ⟨m, by simp [place], h m' hm⟩
    · exact ⟨m', by simp [place, hk, hm], .refl m'⟩
  · by_cases hkid : k = id
    · subst hkid
      exact Option.ne_none_iff_exists'.1 fun hnone => hid hnone hk
    · exact ⟨m', by simpa [place, hkid] using hm⟩

theorem Drifts.name (h : Drifts edits w w') : w'.object.name = w.object.name := by
  cases h with
  | edit hname => exact hname
  | move | arrive | leave => rfl

theorem Drifts.status (h : Drifts edits w w') : w'.object.status = w.object.status := by
  cases h with
  | edit _ hstatus => exact hstatus
  | move | arrive | leave => rfl

theorem Drifts.made (h : Drifts edits w w') : w'.made = w.made := by cases h <;> rfl

theorem Drifts.ages (h : Drifts edits w w') : w.Ages w' := by
  cases h with
  | edit => exact ages_of_machines rfl
  | move hf => exact ages_move hf
  | arrive hnone hmade => exact ages_place (fun m' hm => by simp [hnone] at hm) fun _ => hmade
  | leave => exact ⟨(ages_drop w _).forth, (ages_drop w _).back⟩

end Site

/-- A request touches neither the Instance nor what is lost. -/
theorem DeviceRequest.Takes.frame {r : DeviceRequest} {w w' : Site} (h : r.Takes w w') :
    w'.object = w.object ∧ w'.lost = w.lost := by
  cases r with
  | create =>
    obtain ⟨m, -, -, -, -, rfl⟩ := h
    exact ⟨rfl, rfl⟩
  | get | list => exact ⟨congrArg Site.object h, congrArg Site.lost h⟩
  | update | changePort =>
    obtain ⟨f, -, rfl⟩ := h
    exact ⟨rfl, rfl⟩
  | reinstall =>
    obtain ⟨m, m', -, -, -, -, rfl⟩ := h
    exact ⟨rfl, rfl⟩
  | delete =>
    rw [Takes] at h
    rw [h]
    exact ⟨rfl, rfl⟩

theorem DeviceRequest.Takes.ages {r : DeviceRequest} {w w' : Site} (h : r.Takes w w')
    (hmade : ∀ id ∈ w.made, (w.machines id).isSome) : w.Ages w' := by
  cases r with
  | create =>
    obtain ⟨m, -, -, -, hnone, rfl⟩ := h
    have hplace : w.Ages (w.place m.device.id m) := by
      refine Site.ages_place (fun m' hm => by simp [hnone] at hm) fun _ hid => ?_
      simpa [hnone] using hmade _ hid
    exact ⟨hplace.forth, hplace.back⟩
  | get | list => exact h ▸ .refl w
  | update | changePort =>
    obtain ⟨f, hf, rfl⟩ := h
    exact Site.ages_move hf
  | reinstall id =>
    obtain ⟨m, m', hm, -, hr, -, rfl⟩ := h
    refine Site.ages_place (fun m'' hm'' => ?_) fun hnone => by simp [hm] at hnone
    rw [hm] at hm''
    cases hm''
    exact hr.ages
  | delete id => exact h ▸ Site.ages_drop w id

/-- Only a request for a device makes one, under an id that was never used. -/
theorem DeviceRequest.Takes.made {r : DeviceRequest} {w w' : Site} (h : r.Takes w w') :
    w'.made = w.made ∨ ∃ m : Machine, w'.machines m.device.id = some m ∧
      w.machines m.device.id = none ∧ w'.made = m.device.id :: w.made ∧ m.gone = false ∧
      ∃ spec, r = .create m.project m.device.hostname spec := by
  cases r with
  | create project hostname spec =>
    obtain ⟨m, rfl, rfl, hgone, hnone, rfl⟩ := h
    exact .inr ⟨m, by simp [Site.place], hnone, rfl, hgone, spec, rfl⟩
  | get | list => exact .inl (congrArg Site.made h)
  | update | changePort =>
    obtain ⟨f, -, rfl⟩ := h
    exact .inl rfl
  | reinstall =>
    obtain ⟨m, m', -, -, -, -, rfl⟩ := h
    exact .inl rfl
  | delete =>
    rw [Takes] at h
    rw [h]
    exact .inl rfl

/-- A device exists on, unless it was to be deleted. -/
theorem DeviceRequest.Takes.has {r : DeviceRequest} {w w' : Site} {id : String}
    (h : r.Takes w w') (hr : r ≠ .delete id) (hid : w.Has id) : w'.Has id := by
  obtain ⟨m, hm, hgone⟩ := hid
  cases r with
  | create =>
    obtain ⟨m', -, -, -, hnone, rfl⟩ := h
    have hne : id ≠ m'.device.id := fun he => by simp [← he, hm] at hnone
    exact ⟨m, by simp [Site.place, hne, hm], hgone⟩
  | get | list => exact h ▸ ⟨m, hm, hgone⟩
  | update | changePort =>
    obtain ⟨f, hf, rfl⟩ := h
    exact ⟨f id m, by simp [Site.move, hm], (hf id m).gone.trans hgone⟩
  | reinstall k =>
    obtain ⟨m₁, m₂, hm₁, hgone₁, hr, -, rfl⟩ := h
    by_cases hk : id = k
    · exact ⟨m₂, by simp [Site.place, hk], hr.gone.trans hgone₁⟩
    · exact ⟨m, by simp [Site.place, hk, hm], hgone⟩
  | delete k =>
    rw [Takes] at h
    subst h
    have hk : id ≠ k := fun hk => hr (hk ▸ rfl)
    exact ⟨m, by simp [Site.drop, hk, hm], hgone⟩

/-- A device that passes have made exists on, unless it is lost. -/
theorem Site.Drifts.has {edits : Instance → Instance → Prop} {w w' : Site} {id : String}
    (h : Drifts edits w w') (hid : w.Has id) : w'.Has id ∨ (id ∈ w.made → id ∈ w'.lost) := by
  obtain ⟨m, hm, hgone⟩ := hid
  cases h with
  | edit => exact .inl ⟨m, hm, hgone⟩
  | @move f hf => exact .inl ⟨f id m, by simp [Site.move, hm], (hf id m).gone.trans hgone⟩
  | @arrive m' hnone =>
    have hne : id ≠ m'.device.id := fun he => by simp [← he, hm] at hnone
    exact .inl ⟨m, by simp [place, hne, hm], hgone⟩
  | @leave k =>
    by_cases hk : id = k
    · exact .inr fun hmade => by simp [← hk, hmade]
    · exact .inl ⟨m, by simp [drop, hk, hm], hgone⟩

theorem Site.Drifts.lost {edits : Instance → Instance → Prop} {w w' : Site}
    (h : Drifts edits w w') : w.lost <:+ w'.lost := by
  cases h with
  | edit | move | arrive => exact List.suffix_rfl
  | leave =>
    dsimp only
    split
    · exact List.suffix_cons _ _
    · exact List.suffix_rfl

theorem Site.Drifts.lost_cases {edits : Instance → Instance → Prop} {w w' : Site} {id : String}
    (h : Drifts edits w w') (hid : id ∈ w'.lost) : id ∈ w.lost ∨ id ∈ w.made ∧ ¬w'.Has id := by
  cases h with
  | edit | move | arrive => exact .inl hid
  | @leave k =>
    by_cases hk : k ∈ w.made
    · rcases List.mem_cons.1 (by simpa [hk] using hid) with rfl | hid
      · exact .inr ⟨hk, not_has_drop w id⟩
      · exact .inl hid
    · exact .inl (by simpa [hk] using hid)

/-- A call to the cluster that takes effect changes the Instance alone. -/
theorem InstanceCall.Takes.frame {c : InstanceCall} {w w' : Site} (h : c.Takes w w') :
    ∃ i, w' = { w with object := i } ∧ i.name = w.object.name ∧ i.spec = w.object.spec := by
  cases c with
  | deleteInstance =>
    obtain ⟨t, rfl⟩ := h
    exact ⟨_, rfl, rfl, rfl⟩
  | writeStatus | addFinalizer | removeFinalizer => exact ⟨_, h, rfl, rfl⟩
  | getNode | deleteNode => exact ⟨w.object, h, rfl, rfl⟩

/-- What a step changes is what its call or its request does. -/
theorem SiteStep.Answers.cases {t : SiteStep} {a : t.Answer} {w w' : Site} (h : t.Answers w a w') :
    w' = w ∨ (∃ c, t = .cluster c ∧ c.Takes w w') ∨ ∃ r, t = .request r ∧ r.Takes w w' := by
  cases t with
  | cluster c =>
    cases a with
    | ok => exact .inr (.inl ⟨c, rfl, h⟩)
    | error => exact h.imp_right fun h => .inl ⟨c, rfl, h⟩
  | request r =>
    cases a with
    | ok => exact .inr (.inr ⟨r, rfl, h.1⟩)
    | error => exact h.1.imp_right fun h => .inr ⟨r, rfl, h⟩
  | announce | clock => exact .inl h

end BareMetal
