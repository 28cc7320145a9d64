import BareMetal.Proofs.Instance.Script
import BareMetal.Proofs.Instance.Site
import BareMetal.Proofs.Instance.Visit

/-!
# What a pass changes

A pass over an Instance that is not being deleted changes at most one thing in the cluster: it adds the
finalizer, records a status, or deletes the Instance. One over an Instance that is being deleted gives back
the Node, then the finalizer. What is recorded names everything that the stored status names, but for
addresses: at the end of a reinstallation they are those of the device (`Instance.Writes`).
-/

namespace BareMetal

/-! ## Statuses over older ones -/

namespace InstanceStatus

/-- The parts of a status that can be left out. -/
def parts : List (InstanceStatus → Option String) :=
  [(·.instanceId), (·.deviceState), (·.publicIp), (·.privateIp)]

/-- The status has every part that the older one has. -/
def Covers (new : InstanceStatus) (old : Option InstanceStatus) : Prop :=
  ∀ part ∈ parts, part new = none → old.bind part = none

variable {new : InstanceStatus} {old : Option InstanceStatus}

/-- A status replaces an older one just if it covers it. -/
theorem over_eq_iff : new.over old = new ↔ new.Covers old := by
  have hpart (a b : Option String) : (a <|> b) = a ↔ (a = none → b = none) := by
    cases a <;> simp
  obtain ⟨phase, id, state, publicIp, privateIp⟩ := new
  simp only [InstanceStatus.over, Covers, parts, InstanceStatus.mk.injEq, true_and, List.forall_mem_cons, hpart]
  simp

end InstanceStatus

namespace Instance

variable {i : Instance} {s : Settings} {st : InstanceStatus}

theorem statusOrNew_part {part : InstanceStatus → Option String} (hpart : part ∈ InstanceStatus.parts) :
    part i.statusOrNew = i.status.bind part := by
  cases hstatus : i.status with
  | some st => simp [statusOrNew, hstatus]
  | none =>
    simp only [InstanceStatus.parts, List.mem_cons, List.not_mem_nil, or_false] at hpart
    rw [statusOrNew, hstatus]
    rcases hpart with rfl | rfl | rfl | rfl <;> rfl

/-- The status is recorded at the end of a reinstallation, without an address of a kind that is on
record. -/
structure Forgets (i : Instance) (st : InstanceStatus) : Prop where
  before : i.phase = .reinstalling
  after : st.phase = .ready
  address : st.publicIp = none ∧ i.statusOrNew.publicIp ≠ none ∨
    st.privateIp = none ∧ i.statusOrNew.privateIp ≠ none

/-- The statuses that a pass over the Instance can write. -/
def Writes (i : Instance) (st : InstanceStatus) : Prop := st.Covers i.status ∨ i.Forgets st

theorem writes_of_parts
    (h : ∀ part ∈ InstanceStatus.parts, part st ≠ none ∨ part st = part i.statusOrNew) : i.Writes st := by
  refine .inl fun part hpart hnone => ?_
  rw [← statusOrNew_part hpart]
  exact (h part hpart).elim (fun hsome => absurd hnone hsome) fun heq => heq ▸ hnone

theorem Writes.over_eq_iff (h : i.Writes st) : st.over i.status = st ↔ ¬i.Forgets st := by
  rw [InstanceStatus.over_eq_iff]
  refine ⟨fun hcovers hforgets => ?_, fun hforgets => h.resolve_right hforgets⟩
  have hpublic := hcovers (·.publicIp) (by simp [InstanceStatus.parts])
  have hprivate := hcovers (·.privateIp) (by simp [InstanceStatus.parts])
  rw [← statusOrNew_part (by simp [InstanceStatus.parts])] at hpublic hprivate
  rcases hforgets.address with ⟨hnone, hsome⟩ | ⟨hnone, hsome⟩
  · exact hsome (hpublic hnone)
  · exact hsome (hprivate hnone)

end Instance

/-! ## Changes -/

/-- What the step changes in the cluster. -/
def InstanceStep.change? : InstanceStep → Option InstanceCall
  | .cluster (.getNode _) => none
  | .cluster c => some c
  | .device _ | .announce _ | .clock => none

/-- What a pass over the Instance may change. -/
inductive Instance.MayChange (i : Instance) : InstanceCall → Prop
  | writeStatus {st : InstanceStatus} : i.isDeleting = false → i.Writes st →
    i.MayChange (.writeStatus i.name st)
  | addFinalizer : i.isDeleting = false → i.MayChange (.addFinalizer i.name)
  | deleteInstance : i.isDeleting = false → i.MayChange (.deleteInstance i.name)
  | deleteNode : i.isDeleting = true → i.MayChange (.deleteNode i.name)
  | removeFinalizer : i.isDeleting = true → i.MayChange (.removeFinalizer i.name)

namespace Instance

variable {i : Instance} {place : Place} {t : InstanceStep} {dest : t.Answer → Place}

/-- The addresses are those of the device, whatever is on record. -/
theorem writes_ready (hphase : i.phase = .reinstalling) (state : String)
    (publicIp privateIp : Option String) : i.Writes { i.statusOrNew with
      phase := .ready, deviceState := some state, publicIp := publicIp, privateIp := privateIp } := by
  by_cases hcovers : (publicIp = none → i.statusOrNew.publicIp = none) ∧
      (privateIp = none → i.statusOrNew.privateIp = none)
  · have hpart {new old : Option String} (h : new = none → old = none) : new ≠ none ∨ new = old := by
      cases new with
      | none => exact .inr (h rfl).symm
      | some => exact .inl nofun
    refine writes_of_parts ?_
    simpa [InstanceStatus.parts] using ⟨hpart hcovers.1, hpart hcovers.2⟩
  · rw [not_and_or, Classical.not_imp, Classical.not_imp] at hcovers
    exact .inr ⟨hphase, rfl, hcovers⟩

theorem WritesAt.writes {st : InstanceStatus} (h : i.WritesAt place st) : i.Writes st := by
  cases h with
  | ready hphase => exact writes_ready hphase ..
  | obtained | pending | reconfigured | managed => exact writes_of_parts (by simp [InstanceStatus.parts])

/-- A step of the script changes only what it may. -/
theorem May.mayChange {c : InstanceCall} (h : i.May place t dest) (hc : t.change? = some c) : i.MayChange c := by
  cases h with
  | announce | clock | getNode | find | create | status | reconfigure | deprovision => cases hc
  | addFinalizer hstays =>
    cases hc
    exact .addFinalizer hstays
  | record hstays hwrites =>
    cases hc
    exact .writeStatus hstays hwrites.writes
  | deleteInstance hstays =>
    cases hc
    exact .deleteInstance hstays
  | deleteNode hdeleting =>
    cases hc
    exact .deleteNode hdeleting
  | removeFinalizer hdeleting =>
    cases hc
    exact .removeFinalizer hdeleting

/-- How many things can still be changed in the cluster, if the Instance is not being deleted. -/
def Place.changes : Place → Nat
  | .ended | .failed _ => 0
  | .opened | .missing _ | .obtained _ | .polled _ | .reconfigured _ | .released | .cleared => 1

theorem Place.changes_le_one (place : Place) : place.changes ≤ 1 := by
  cases place with
  | ended | failed => exact Nat.zero_le 1
  | opened | missing | obtained | polled | reconfigured | released | cleared => exact Nat.le_refl 1

theorem May.changes_le (h : i.May place t dest) (hstays : i.isDeleting = false) (r : t.Answer) :
    t.change?.toList.length + (dest r).changes ≤ place.changes := by
  cases h with
  | announce | clock => exact Nat.le_of_eq (Nat.zero_add _)
  | getNode | find | create | status | reconfigure =>
    exact Nat.le_trans (Nat.le_of_eq (Nat.zero_add _)) (Place.changes_le_one _)
  | addFinalizer | deleteInstance => cases r <;> exact Nat.le_refl 1
  | record _ hwrites =>
    -- the answer ends the pass, and where a status is written, one can be
    cases r <;> cases hwrites <;> exact Nat.le_refl 1
  | deprovision hdeleting | deleteNode hdeleting | removeFinalizer hdeleting =>
    rw [hstays] at hdeleting
    cases hdeleting

end Instance

/-! ## Visits -/

namespace Visit

variable {v : Visit}

/-- What the visit changes in the cluster, in order. -/
def changes (v : Visit) : List InstanceCall := v.told.calls.filterMap InstanceStep.change?

theorem mayChange {c : InstanceCall} (hc : c ∈ v.changes) : v.object.MayChange c := by
  obtain ⟨t, ht, htc⟩ := List.mem_filterMap.1 hc
  refine (v.object.reconcile_follows v.settings v.memory).told (I := fun _ => True)
    (P := fun t => ∀ c, t.change? = some c → v.object.MayChange c)
    (fun hmay _ => ⟨fun c hc => hmay.mayChange hc, trivial⟩) trivial t ht c htc

/-- A visit to an Instance that is not being deleted changes one thing at most. -/
theorem length_changes (hstays : v.object.isDeleting = false) : v.changes.length ≤ 1 :=
  (v.object.reconcile_follows v.settings v.memory).length_told Instance.Place.changes
    fun hmay => hmay.changes_le hstays

end Visit

end BareMetal
