import BareMetal.Proofs.Pool.Site

/-!
# A pool in helpful surroundings

Passes over one pool when every call succeeds: what they need to create members is at hand, the
names drawn for new members are fresh, a deleted member is gone at once, and before each pass all
machines have joined the cluster. Here it is said what the calls of a pass make of the members of
the pool, as long as these are in order (`PoolScene.Tidy`).
-/

namespace BareMetal

/-- A pool that can have members: it can be told from others, its spec is valid, and it is not
being deleted. -/
structure Pool.Viable (p : Pool) : Prop where
  name : p.metadata.name.isSome
  uid : p.metadata.uid.isSome
  valid : p.spec.validate = .ok ()
  stays : p.metadata.isDeleting = false

/-- A stored pool and the Instances of the cluster. -/
structure PoolScene where
  object : Pool
  members : List Instance

/-- What a pass over the pool meets when nothing fails. As long as members are missing, fresh names
are drawn. -/
structure Surroundings (p : Pool) where
  settings : Settings
  memory : Backoff
  secret : Cluster.Secret
  service : Cluster.Service
  controlPlane : List Cluster.Node
  /-- The order of a listing. -/
  listed : List Instance → List Instance
  /-- The next draw, given the members. -/
  draw : List Instance → Draw
  now : Stamp
  /-- What becomes of a member between passes. -/
  joined : Instance → Instance
  token : ∃ t, settings.joinToken = some t ∧ t ≠ ""
  credentials : ∃ c, Credentials.ofSecret settings.credentialSecret secret.data = .ok c
  address : ∃ a, service.address? = some a
  perm : ∀ is, (listed is).Perm is
  fresh : ∀ is : List Instance, (is.length : Int) < p.spec.count.toInt →
    (draw is).name p.name ∉ is.map (·.name)
  joined_metadata : ∀ i, (joined i).metadata = i.metadata
  joined_phase : ∀ i, (joined i).phase = .managed

namespace PoolScene

variable {p : Pool} {e : Surroundings p} {w : PoolScene}

/-- The scene when a status was written. -/
def report (w : PoolScene) (st : PoolStatus) : PoolScene :=
  { w with object := { w.object with status := some (st.over w.object.status) } }

/-- The scene with other members. -/
def populate (w : PoolScene) (members : List Instance) : PoolScene := { w with members := members }

/-- The answer to a step, and the scene after it. -/
def serve (e : Surroundings p) : (t : PoolStep) → PoolScene → t.Answer × PoolScene
  | .cluster (.writeStatus _ st), w => (.ok (), w.report st)
  | .cluster (.getSecret ..), w => (.ok (some e.secret), w)
  | .cluster .listControlPlane, w => (.ok e.controlPlane, w)
  | .cluster (.getService ..), w => (.ok (some e.service), w)
  | .cluster (.listInstances n), w => (.ok (e.listed (w.members.filter (·.labelledPool? = some n))), w)
  | .cluster (.createInstance i), w => (.ok (), w.populate (i.storedAs i.name e.now :: w.members))
  | .cluster (.deleteInstance n), w => (.ok (), w.populate (w.members.filter (·.name ≠ n)))
  | .draw, w => (e.draw w.members, w)
  | .announce _, w | .lock _, w | .unlock _, w => ((), w)
  | .readBootstrap _, w => (.error "no such document", w)

/-- The scene when all machines have joined. -/
def join (e : Surroundings p) (w : PoolScene) : PoolScene := w.populate (w.members.map e.joined)

/-- The pass that is made in the surroundings. -/
def pass (e : Surroundings p) (w : PoolScene) :
    Program PoolStep PoolStep.Answer (Except Failure Followup × Backoff) :=
  w.object.pass e.settings e.memory

/-- The scene after all machines have joined and a pass was made. -/
def round (e : Surroundings p) (w : PoolScene) : PoolScene :=
  (((w.join e).pass e).play (serve e) (w.join e)).2

/-- The steps of that pass. -/
def steps (e : Surroundings p) (w : PoolScene) : List PoolStep :=
  ((w.join e).pass e).calls (serve e) (w.join e)

/-- The scene after a number of rounds, each in surroundings of its own. -/
def rounds (e : Nat → Surroundings p) (w : PoolScene) : Nat → PoolScene
  | 0 => w
  | n + 1 => (w.rounds e n).round (e n)

/-! ## Members in order -/

/-- The stored pool is the given one but for its status, and its members are in order: told apart by
their names, labelled with the pool, not being deleted, and few enough to be counted in 32 bits. -/
structure Tidy (p : Pool) (w : PoolScene) : Prop where
  metadata : w.object.metadata = p.metadata
  spec : w.object.spec = p.spec
  names : (w.members.map (·.name)).Nodup
  labelled : ∀ i ∈ w.members, i.labelledPool? = some p.name
  stay : ∀ i ∈ w.members, i.isDeleting = false
  few : w.members.length < 2 ^ 31

/-- All machines are members of the cluster. -/
def Joined (w : PoolScene) : Prop := ∀ i ∈ w.members, i.phase = .managed

theorem Tidy.name (h : w.Tidy p) : w.object.name = p.name := by
  unfold Pool.name
  rw [h.metadata]

theorem Tidy.report (h : w.Tidy p) (st : PoolStatus) : (w.report st).Tidy p :=
  ⟨h.metadata, h.spec, h.names, h.labelled, h.stay, h.few⟩

/-- A part of members in order is in order. -/
theorem Tidy.populate {members : List Instance} (h : w.Tidy p) (hsub : members.Sublist w.members) :
    (w.populate members).Tidy p where
  metadata := h.metadata
  spec := h.spec
  names := h.names.sublist (hsub.map _)
  labelled i hi := h.labelled i (hsub.subset hi)
  stay i hi := h.stay i (hsub.subset hi)
  few := Nat.lt_of_le_of_lt hsub.length_le h.few

theorem Tidy.join (h : w.Tidy p) : (w.join e).Tidy p := by
  have hname (i : Instance) : (e.joined i).name = i.name := by
    unfold Instance.name
    rw [e.joined_metadata]
  have hnames : (w.members.map e.joined).map (·.name) = w.members.map (·.name) := by
    rw [List.map_map]
    exact List.map_congr_left fun i _ => hname i
  refine ⟨h.metadata, h.spec, hnames ▸ h.names, ?_, ?_, (List.length_map e.joined).symm ▸ h.few⟩
  · intro j hj
    obtain ⟨i, hi, rfl⟩ := List.mem_map.1 hj
    unfold Instance.labelledPool?
    rw [e.joined_metadata]
    exact h.labelled i hi
  · intro j hj
    obtain ⟨i, hi, rfl⟩ := List.mem_map.1 hj
    unfold Instance.isDeleting
    rw [e.joined_metadata]
    exact h.stay i hi

theorem joined_join : (w.join e).Joined := by
  intro j hj
  obtain ⟨i, -, rfl⟩ := List.mem_map.1 hj
  exact e.joined_phase i

/-! ## Counting -/

/-- A listing is complete. -/
theorem Tidy.perm_listed (h : w.Tidy p) :
    (e.listed (w.members.filter (·.labelledPool? = some p.name))).Perm w.members := by
  have hall : w.members.filter (·.labelledPool? = some p.name) = w.members :=
    List.filter_eq_self.2 fun i hi => by simpa using h.labelled i hi
  rw [hall]
  exact e.perm _

/-- The members as they are counted. -/
def fleet (w : PoolScene) : Fleet := Fleet.ofInstances w.members

theorem Tidy.toInt_present (h : w.Tidy p) : w.fleet.present.toInt = w.members.length := by
  have hlive : Fleet.live w.members = w.members.length :=
    List.countP_eq_length.2 fun i hi => by simp [h.stay i hi]
  unfold fleet
  rw [Fleet.toInt_present (hlive ▸ h.few), hlive]

/-- Where all machines have joined, all members are ready. -/
theorem Joined.ready_eq (h : w.Joined) : w.fleet.ready = w.fleet.present := by
  have hall : (w.members.filter (!·.isDeleting)).filter (·.phase = .managed) =
      w.members.filter (!·.isDeleting) := by
    refine List.filter_eq_self.2 fun i hi => ?_
    have hphase := h i (List.mem_filter.1 hi).1
    simpa using hphase
  unfold fleet Fleet.ofInstances
  dsimp only
  rw [hall]

/-! ## Creating -/

/-- A new member is in order. -/
theorem Tidy.cons (h : w.Tidy p) {m : JoinMaterial} {i : Instance}
    (hi : w.object.synthesize m e.settings (e.draw w.members) = .ok i)
    (hroom : (w.members.length : Int) < p.spec.count.toInt) :
    (w.populate (i.storedAs i.name e.now :: w.members)).Tidy p := by
  have hcount := p.spec.count.toInt_lt
  obtain ⟨hname, hlabel, -, -, -, hstays⟩ := Pool.makes_of_synthesize hi
  rw [h.name] at hname hlabel
  have hstored : i.name = (e.draw w.members).name p.name := by
    rw [Instance.name, Cluster.Metadata.nameOrStem, hname]
    rfl
  refine ⟨h.metadata, h.spec, List.nodup_cons.2 ⟨?_, h.names⟩, List.forall_mem_cons.2 ⟨hlabel, h.labelled⟩,
    List.forall_mem_cons.2 ⟨hstays, h.stay⟩, ?_⟩
  · show i.name ∉ w.members.map (·.name)
    rw [hstored]
    exact e.fresh w.members hroom
  · show w.members.length + 1 < 2 ^ 31
    omega

theorem Tidy.synthesize (h : w.Tidy p) (hp : p.Viable) (m : JoinMaterial) (s : Settings) (d : Draw) :
    ∃ i, w.object.synthesize m s d = .ok i :=
  Pool.exists_synthesize (h.metadata ▸ hp.name) (h.metadata ▸ hp.uid) m s d

/-! ## Deleting -/

/-- Without the members named first in a listing, the others are left. -/
theorem length_filter_not_mem_take {is js : List Instance} (hperm : js.Perm is)
    (hnames : (is.map (·.name)).Nodup) (n : Nat) :
    (is.filter fun i => i.name ∉ (js.take n).map (·.name)).length = is.length - n := by
  have hjs : ((js.take n ++ js.drop n).map (·.name)).Nodup := by
    rw [List.take_append_drop]
    exact (hperm.map _).nodup_iff.2 hnames
  rw [List.map_append] at hjs
  have hdisjoint := (List.nodup_append.1 hjs).2.2
  have htaken : (js.take n).filter (fun i => i.name ∉ (js.take n).map (·.name)) = [] := by
    refine List.filter_eq_nil_iff.2 fun i hi => ?_
    have hmem : i.name ∈ (js.take n).map (·.name) := List.mem_map_of_mem hi
    simpa using hmem
  have hleft : (js.drop n).filter (fun i => i.name ∉ (js.take n).map (·.name)) = js.drop n := by
    refine List.filter_eq_self.2 fun i hi => ?_
    have hnot : i.name ∉ (js.take n).map (·.name) := fun hmem =>
      hdisjoint _ hmem _ (List.mem_map_of_mem hi) rfl
    simpa using hnot
  calc (is.filter fun i => i.name ∉ (js.take n).map (·.name)).length
      = (js.filter fun i => i.name ∉ (js.take n).map (·.name)).length :=
        ((hperm.filter _).length_eq).symm
    _ = ((js.take n ++ js.drop n).filter fun i => i.name ∉ (js.take n).map (·.name)).length := by
        rw [List.take_append_drop]
    _ = (js.drop n).length := by rw [List.filter_append, htaken, hleft, List.nil_append]
    _ = is.length - n := by rw [List.length_drop, hperm.length_eq]

end PoolScene

end BareMetal
