import BareMetal.Pool.Synthesis
import BareMetal.Proofs.Device.Listing
import BareMetal.Proofs.Instance.Remediation

/-!
# What a pool hands over to its Instances

The passes over an Instance work with what its pool wrote into it. They refuse a wait that cannot be read,
which nobody looks at when the spec of the pool is checked (`Pool.offspring_begins_iff`). The credentials of
the pool arrive unless its Secret has only blanks under a key (`Credentials.arrive_iff`).
-/

namespace BareMetal

/-! ## Checks of a spec -/

/-- No wait is written, or one that can be read. -/
def Span.Readable (written : Option String) : Prop :=
  ∀ text, written = some text → text ≠ "" → ∃ span, parse text = .ok span

/-- A wait is refused just if it cannot be read. -/
theorem InstanceSpec.cleanupWait_cases (s : InstanceSpec) :
    (Span.Readable s.nodeCleanupWait ∧ ∃ wait, s.cleanupWait = .ok wait) ∨
    (¬Span.Readable s.nodeCleanupWait ∧ ∃ e : Span.Malformed, s.cleanupWait =
      .error (.validation Failure.unknown e.message (some "spec.nodeCleanupWaitInterval"))) := by
  unfold cleanupWait
  cases hwritten : s.nodeCleanupWait.filter (· ≠ "") with
  | none =>
    refine .inl ⟨fun text htext hne => ?_, none, rfl⟩
    simp [htext, hne] at hwritten
  | some text =>
    obtain ⟨htext, hne⟩ := Option.filter_eq_some_iff.1 hwritten
    cases hparse : Span.parse text with
    | ok span =>
      refine .inl ⟨fun text' htext' _ => ?_, some span, by simp [hparse]⟩
      exact ⟨span, Option.some.inj (htext.symm.trans htext') ▸ hparse⟩
    | error e =>
      refine .inr ⟨fun hreadable => ?_, e, by simp [hparse]⟩
      obtain ⟨span, hspan⟩ := hreadable text htext (by simpa using hne)
      rw [hspan] at hparse
      cases hparse

/-- The topology wanted, if there is one, is known. -/
def InstanceSpec.TopologyKnown (s : InstanceSpec) : Prop :=
  ∀ n, s.wantedNetworking? = some n → ∃ t, n.parsedTopology = .ok t

namespace Instance

variable {i : Instance}

theorem checkSpec_of_topologyKnown (h : i.spec.TopologyKnown) :
    i.checkSpec = i.spec.cleanupWait.map fun _ => () := by
  have hrest : (do let _ ← i.spec.cleanupWait : Except Failure Unit) = i.spec.cleanupWait.map fun _ => () := by
    cases i.spec.cleanupWait <;> rfl
  unfold checkSpec
  split
  · exact hrest
  · next n hn =>
    obtain ⟨t, ht⟩ := h n hn
    simp only [ht]
    exact hrest

end Instance

/-! ## First visits -/

namespace Visit

variable {v : Visit} {i : Instance} {c : Credentials}

/-- The visit is to an Instance as it was made, with the finalizer on it. -/
structure Begins (v : Visit) (i : Instance) : Prop where
  annotations : v.object.metadata.annotations = i.metadata.annotations
  spec : v.object.spec = i.spec
  phase : v.object.phase = .empty
  stays : v.object.isDeleting = false
  finalizer : v.object.metadata.hasFinalizer Names.deprovision = true

theorem Begins.ofInstance (h : v.Begins i) (hi : Credentials.ofInstance i = .ok c) :
    Credentials.ofInstance v.object = .ok c := by
  rw [Credentials.ofInstance_eq_ok_iff] at hi ⊢
  unfold Instance.apiToken? Cluster.Metadata.annotation? at hi ⊢
  rwa [h.annotations, h.spec]

/-- A visit that is to obtain a device looks for it first. -/
theorem Obtains.find_first (h : v.Obtains c) : [.device (.find c v.name)] <+: v.told.calls := by
  have hasked : [.device (.find c v.name)] <+:
      (BareMetal.told v.answer (v.object.obtainDevice c) v.memory).calls :=
    prefix_told_bind (x := InstancePass.device (.find c v.object.name))
  have hadvance : [.device (.find c v.name)] <+: v.advance.calls := by
    rw [Visit.advance, h.advance]
    exact hasked.trans prefix_told_bind
  obtain ⟨es, hcalls⟩ := v.calls_told
  rw [hcalls]
  exact hadvance.trans (List.prefix_append ..)

/-- A visit to a spec that is refused ends in the refusal and asks nobody. -/
theorem Begins.refused {f : Failure} (h : v.Begins i) (hcheck : v.object.checkSpec = .error f) :
    v.told.result = .error f ∧ ∀ t ∈ v.told.calls, ∃ e, t = .announce e := by
  have hadvance : v.advance = ⟨.error f, v.memory, []⟩ := by
    have hpass : v.object.advance v.settings = v.object.submit v.settings := by
      unfold Instance.advance
      rw [if_neg (by simp [h.stays]), h.phase]
    unfold advance
    rw [hpass, Instance.submit, h.finalizer, hcheck, if_neg (by decide), told_bind, InstancePass.told_check,
      Told.andThen_error]
  obtain ⟨es, hcalls⟩ := v.calls_told
  rw [result_told, hcalls, hadvance]
  exact ⟨rfl, by simp⟩

end Visit

/-! ## Specs that are handed over -/

theorem Span.parse_soon : parse "soon" = .error (.missingNumber "soon") := by
  have htrim : Text.trim "soon" = "soon" := by decide +kernel
  unfold parse
  rw [htrim]
  dsimp only
  rw [if_neg (by decide), if_neg (by decide), parseFrom, if_neg (by decide), if_neg (by decide)]
  split
  · rfl
  · next hsome => exact absurd hsome (by decide)

namespace Pool

variable {p : Pool} {m : JoinMaterial} {s : Settings} {d : Draw} {i : Instance}

theorem topologyKnown_of_synthesize (hvalid : p.spec.validate = .ok ()) (h : p.synthesize m s d = .ok i) :
    i.spec.TopologyKnown := by
  rw [(makes_of_synthesize h).spec]
  exact (PoolSpec.validate_eq_ok_iff.1 hvalid).2.2

theorem ofInstance_of_synthesize (h : p.synthesize m s d = .ok i) : Credentials.ofInstance i =
    .ok m.credentials ↔ m.credentials.token ≠ "" ∧ m.credentials.projectId ≠ "" := by
  have hmade := makes_of_synthesize h
  rw [Credentials.ofInstance_eq_ok_iff, hmade.token, hmade.spec]
  simp [instanceSpec]

/-- A pool with a valid spec makes Instances with a topology that is known. A pass over such an Instance
accepts its spec and looks for the device just if the wait that is written in the pool can be read. If not, no
pass asks anybody: each ends in the refusal of the wait, whatever it meets. -/
theorem offspring_begins_iff (hname : p.metadata.name.isSome = true) (huid : p.metadata.uid.isSome = true)
    (hvalid : p.spec.validate = .ok ()) (htoken : m.credentials.token ≠ "")
    (hproject : m.credentials.projectId ≠ "") (s : Settings) (d : Draw) :
    ∃ i, p.synthesize m s d = .ok i ∧ ∀ v : Visit, v.Begins i →
      v.object.spec.TopologyKnown ∧
      (v.object.checkSpec = .ok () ↔ Span.Readable p.spec.nodeCleanupWait) ∧
      (Span.Readable p.spec.nodeCleanupWait → [.device (.find m.credentials v.name)] <+: v.told.calls) ∧
      (¬Span.Readable p.spec.nodeCleanupWait → ∃ e : Span.Malformed, v.told.result =
          .error (.validation Failure.unknown e.message (some "spec.nodeCleanupWaitInterval")) ∧
        ∀ t ∈ v.told.calls, ∃ e, t = .announce e) := by
  obtain ⟨i, hi⟩ := exists_synthesize hname huid m s d
  refine ⟨i, hi, fun v hv => ?_⟩
  have htopology : v.object.spec.TopologyKnown := hv.spec ▸ topologyKnown_of_synthesize hvalid hi
  have hcheck := Instance.checkSpec_of_topologyKnown htopology
  have hwritten : v.object.spec.nodeCleanupWait = p.spec.nodeCleanupWait := by
    rw [hv.spec, (makes_of_synthesize hi).spec]
    rfl
  rw [← hwritten]
  refine ⟨htopology, ?_⟩
  rcases v.object.spec.cleanupWait_cases with ⟨hreadable, wait, hwait⟩ | ⟨hnot, e, hwait⟩
  · rw [hwait] at hcheck
    have hobtains : v.Obtains m.credentials :=
      ⟨hv.phase, hv.stays, hv.finalizer, hcheck,
        hv.ofInstance ((ofInstance_of_synthesize hi).2 ⟨htoken, hproject⟩)⟩
    exact ⟨iff_of_true hcheck hreadable, fun _ => hobtains.find_first, fun hnot => absurd hreadable hnot⟩
  · rw [hwait] at hcheck
    refine ⟨iff_of_false (by simp [hcheck, Except.map]) hnot,
      fun hreadable => absurd hreadable hnot, fun _ => ?_⟩
    obtain ⟨hresult, hcalls⟩ := hv.refused hcheck
    exact ⟨e, hresult, hcalls⟩

/-- A pool of one machine that is replaced after the wait that is written. -/
def waiting (wait : String) : Pool where
  metadata := { name := some "edge", uid := some "u-edge" }
  spec := { count := 1, plan := "c3.small", nodeCleanupWait := some wait }

/-- What its machine needs. -/
def labMaterial : JoinMaterial := ⟨⟨"secret", "lab"⟩, "join", "10.0.0.1"⟩

/-- The first visit to an Instance that finds the finalizer, without any answer. -/
def firstVisit (i : Instance) : Visit where
  settings := .standard
  object := { i with metadata := { i.metadata with finalizers := some [Names.deprovision] } }
  memory := {}
  answer
    | .device _ => .error (.provisioning "edge" "timeout" true)
    | .cluster _ => .error (.cluster (.unavailable "timeout"))
    | .announce _ => ()
    | .clock => .epoch

theorem begins_firstVisit (h : p.synthesize m s d = .ok i) : (firstVisit i).Begins i where
  annotations := rfl
  spec := rfl
  phase := (makes_of_synthesize h).phase
  stays := (makes_of_synthesize h).stays
  finalizer := by simp [firstVisit, Cluster.Metadata.hasFinalizer]

/-- With a wait of ten minutes, the device is looked for. -/
theorem offspring_begins_tenMinutes : ∃ i, (waiting "10m").synthesize labMaterial .standard default = .ok i ∧
    (firstVisit i).object.checkSpec = .ok () ∧
    [.device (.find labMaterial.credentials (firstVisit i).name)] <+: (firstVisit i).told.calls := by
  have hreadable : Span.Readable (some "10m") := fun _ htext _ =>
    ⟨.seconds 600, Option.some.inj htext ▸ Span.parse_tenMinutes⟩
  obtain ⟨i, hi, hvisits⟩ := offspring_begins_iff (p := waiting "10m") (m := labMaterial) rfl rfl rfl
    (by decide) (by decide) .standard default
  obtain ⟨-, hcheck, hfind, -⟩ := hvisits _ (begins_firstVisit hi)
  exact ⟨i, hi, hcheck.2 hreadable, hfind hreadable⟩

/-- The pool is valid, but its Instance is refused. -/
theorem offspring_refused_soon : (waiting "soon").spec.validate = .ok () ∧
    ∃ i, (waiting "soon").synthesize labMaterial .standard default = .ok i ∧ (firstVisit i).Begins i ∧
      (firstVisit i).object.checkSpec = .error (.validation Failure.unknown
        "expected a number in duration 'soon'" (some "spec.nodeCleanupWaitInterval")) := by
  obtain ⟨i, hi⟩ := exists_synthesize (p := waiting "soon") rfl rfl labMaterial .standard default
  refine ⟨rfl, i, hi, begins_firstVisit hi, ?_⟩
  have htopology : i.spec.TopologyKnown := topologyKnown_of_synthesize (p := waiting "soon") rfl hi
  have hwritten : i.spec.nodeCleanupWait = some "soon" := by
    rw [(makes_of_synthesize hi).spec]
    rfl
  have hwait : i.spec.cleanupWait = .error (.validation Failure.unknown
      "expected a number in duration 'soon'" (some "spec.nodeCleanupWaitInterval")) := by
    unfold InstanceSpec.cleanupWait
    rw [hwritten, Option.filter_some, if_pos (by decide)]
    dsimp only
    rw [Span.parse_soon]
    rfl
  rw [Instance.checkSpec_of_topologyKnown (i := (firstVisit i).object) htopology]
  exact congrArg (Except.map fun _ => ()) hwait

end Pool

/-! ## Credentials that are handed over -/

namespace Credentials

variable {p : Pool} {secret : String} {data : Option (Dict (List UInt8))} {key : String} {c : Credentials}

/-- There are only blanks under a key of a Secret. -/
def BlankAt (data : Option (Dict (List UInt8))) (key : String) : Prop :=
  ∃ bytes text, data.bind (·.get? key) = some bytes ∧ String.fromUTF8? ⟨bytes.toArray⟩ = some text ∧
    ∀ ch ∈ text.toList, Text.isBlank ch = true

theorem eq_empty_iff_blankAt {text : String} (h : secretText secret data key = .ok text) :
    text = "" ↔ BlankAt data key := by
  unfold secretText at h
  split at h
  · cases h
  · next bytes hbytes =>
    split at h
    · cases h
    · next raw hraw =>
      cases h
      rw [Text.trim_eq_empty_iff]
      refine ⟨fun hblank => ⟨bytes, raw, hbytes, hraw, hblank⟩, ?_⟩
      rintro ⟨bytes', raw', hbytes', hraw', hblank⟩
      cases hbytes.symm.trans hbytes'
      cases hraw.symm.trans hraw'
      exact hblank

theorem ofSecret_eq_ok_iff : ofSecret secret data = .ok c ↔
    secretText secret data tokenKey = .ok c.token ∧ secretText secret data projectKey = .ok c.projectId := by
  obtain ⟨token, projectId⟩ := c
  unfold ofSecret
  cases secretText secret data tokenKey <;> cases secretText secret data projectKey <;>
    simp [bind, Except.bind, pure, Except.pure]

/-- The credentials that a pool reads from a Secret arrive at the passes over its Instances unless there are
only blanks under a key. If so, a pass finds that they are missing. -/
theorem arrive_iff (hname : p.metadata.name.isSome = true) (huid : p.metadata.uid.isSome = true)
    (hread : ofSecret secret data = .ok c) (token address : String) (s : Settings) (d : Draw) :
    ∃ i, p.synthesize ⟨c, token, address⟩ s d = .ok i ∧
      (ofInstance i = .ok c ↔ ¬BlankAt data tokenKey ∧ ¬BlankAt data projectKey) ∧
      (BlankAt data tokenKey → ofInstance i =
        .error (failure s!"instance {d.name p.name} has no provisioning token annotation")) ∧
      (¬BlankAt data tokenKey → BlankAt data projectKey → ofInstance i =
        .error (failure s!"instance {d.name p.name} has no projectID")) := by
  obtain ⟨i, hi⟩ := Pool.exists_synthesize hname huid ⟨c, token, address⟩ s d
  obtain ⟨htoken, hproject⟩ := ofSecret_eq_ok_iff.1 hread
  rw [← eq_empty_iff_blankAt htoken, ← eq_empty_iff_blankAt hproject]
  have hmade := Pool.makes_of_synthesize hi
  refine ⟨i, hi, Pool.ofInstance_of_synthesize hi, ?_, ?_⟩
  · intro hempty
    have hnone : i.apiToken? = none := by
      rw [hmade.token]
      simp [hempty]
    rw [ofInstance, hnone, hmade.name]
    rfl
  · intro hne hempty
    have hsome : i.apiToken? = some c.token := by
      rw [hmade.token]
      simp [hne]
    have hnone : i.spec.projectId.filter (· ≠ "") = none := by
      rw [hmade.spec]
      simp [Pool.instanceSpec, hempty]
    rw [ofInstance, hsome]
    dsimp only
    rw [hnone, hmade.name]
    rfl

/-- The data of a Secret with this token. -/
def secretWith (token : List UInt8) : Option (Dict (List UInt8)) :=
  some (.ofList [(tokenKey, token), (projectKey, [108, 97, 98])])

/-- The credentials arrive without the line break after the token. -/
theorem arrive_trimmed : ofSecret "metal" (secretWith [97, 10]) = .ok ⟨"a", "lab"⟩ ∧
    ∃ i, (Pool.waiting "").synthesize ⟨⟨"a", "lab"⟩, "join", "10.0.0.1"⟩ .standard default = .ok i ∧
      ofInstance i = .ok ⟨"a", "lab"⟩ := by
  have hread : ofSecret "metal" (secretWith [97, 10]) = .ok ⟨"a", "lab"⟩ :=
    ok_of_toOption (by decide +kernel)
  obtain ⟨htoken, hproject⟩ := ofSecret_eq_ok_iff.1 hread
  obtain ⟨i, hi, harrive, -⟩ :=
    arrive_iff (p := Pool.waiting "") rfl rfl hread "join" "10.0.0.1" .standard default
  refine ⟨hread, i, hi, harrive.2 ⟨?_, ?_⟩⟩
  · rw [← eq_empty_iff_blankAt htoken]
    decide
  · rw [← eq_empty_iff_blankAt hproject]
    decide

/-- A line break passes for a token, and does not arrive. -/
theorem blank_lost : ofSecret "metal" (secretWith [10]) = .ok ⟨"", "lab"⟩ ∧
    ∃ i, (Pool.waiting "").synthesize ⟨⟨"", "lab"⟩, "join", "10.0.0.1"⟩ .standard default = .ok i ∧
      ofInstance i ≠ .ok ⟨"", "lab"⟩ := by
  have hread : ofSecret "metal" (secretWith [10]) = .ok ⟨"", "lab"⟩ :=
    ok_of_toOption (by decide +kernel)
  obtain ⟨i, hi⟩ := Pool.exists_synthesize (p := Pool.waiting "") rfl rfl
    ⟨⟨"", "lab"⟩, "join", "10.0.0.1"⟩ .standard default
  exact ⟨hread, i, hi, fun harrived => ((Pool.ofInstance_of_synthesize hi).1 harrived).1 rfl⟩

end Credentials

end BareMetal
