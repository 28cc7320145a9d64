import BareMetal.Proofs.Codecs
import BareMetal.Proofs.Instance.Changes
import BareMetal.Proofs.Pool.Validity

/-!
# Writing statuses over stored ones

A status is written as a merge patch, which leaves out what the status leaves out. So what is stored
afterwards is the status over the one before (`InstanceStatus.over`, `PoolStatus.over`), which is the
status that was written just if it has every part that the one before has. Passes over pools always write
such a status. Passes over Instances do so unless they end a reinstallation after which the device has no
address of a kind that is on record (`Instance.Forgets`).
-/

namespace BareMetal

open Json

/-! ## Objects -/

namespace Json

variable {members changes : List (String × Json)} {key : String} {v : Json}

theorem uniqueKeys_nil : UniqueKeys [] := List.nodup_nil

theorem mem_keys_of_putMember {q : String} (h : q ∈ (putMember key v members).map (·.1)) :
    q = key ∨ q ∈ members.map (·.1) := by
  induction members with
  | nil => simpa [putMember] using h
  | cons e rest ih =>
    rw [putMember] at h
    split at h
    · rcases List.mem_cons.1 h with rfl | h
      · exact .inl rfl
      · exact .inr (List.mem_cons_of_mem _ (((List.filter_sublist).map _).subset h))
    · rcases List.mem_cons.1 h with rfl | h
      · exact .inr List.mem_cons_self
      · exact (ih h).imp_right (List.mem_cons_of_mem _)

theorem uniqueKeys_dropMember (h : UniqueKeys members) (key : String) :
    UniqueKeys (dropMember key members) :=
  h.sublist ((List.filter_sublist).map _)

theorem uniqueKeys_putMember (h : UniqueKeys members) (key : String) (v : Json) :
    UniqueKeys (putMember key v members) := by
  induction members with
  | nil => simp [UniqueKeys, putMember]
  | cons e rest ih =>
    obtain ⟨hnot, hrest⟩ := List.nodup_cons.1 h
    rw [putMember]
    split
    · refine List.nodup_cons.2 ⟨fun hmem => ?_, uniqueKeys_dropMember hrest key⟩
      obtain ⟨e', he', hkey⟩ := List.mem_map.1 hmem
      have hne : e'.1 ≠ key := by simpa using (List.mem_filter.1 he').2
      exact hne hkey
    · next hne =>
      refine List.nodup_cons.2 ⟨fun hmem => ?_, ih hrest⟩
      rcases mem_keys_of_putMember hmem with hkey | hmem
      · exact hne hkey
      · exact hnot hmem

theorem uniqueKeys_mergeMembers (h : UniqueKeys members) (changes : List (String × Json)) :
    UniqueKeys (mergeMembers members changes) := by
  induction changes generalizing members with
  | nil => rwa [mergeMembers]
  | cons change rest ih =>
    rw [mergeMembers]
    split
    · exact ih (uniqueKeys_dropMember h _)
    · exact ih (uniqueKeys_putMember h _ _)

/-- A patch of one member merges its value with the one at its key. -/
theorem get?_mergePatch_singleton (h : UniqueKeys members) (hv : v.isNull = false) :
    (mergePatch (.obj members) (.obj [(key, v)])).get? key =
      some (mergePatch (((Json.obj members).get? key).getD .null) v) := by
  have hfind : (members.find? (·.1 = key)).map (·.2) = (Json.obj members).get? key := by
    rw [← List.head?_filter, filter_key h]
    cases (Json.obj members).get? key <;> rfl
  rw [mergePatch, membersOrNone, mergeMembers, if_neg (by simp [hv]), hfind, mergeMembers,
    get?_putMember, if_pos rfl]

end Json

/-! ## Forms of objects -/

namespace Json.Form

variable {α : Type} {f : Form α} {fields : α → List (String × Json)} {members : List (String × Json)} {a : α}

/-- An object that says at every key what is written of a value is read as the value. -/
theorem decode_of_get? (hfields : ∀ a, f.encode a = .obj (fields a)) (ha : f.Undoes 1 a)
    (hunique : UniqueKeys members) (h : ∀ key, (Json.obj members).get? key = (f.encode a).get? key) :
    Json.decode f.decode (.obj members) = .ok a := by
  have htidy := ha.tidy
  rw [hfields] at h htidy
  have hrestates : (Json.obj members).Restates (f.encode a) := hfields a ▸ restates_of_get? hunique htidy h
  exact ha.reads hrestates (by decide)

/-- Values are written as plain members. If these are, with those of an older value that they lack, the
members of the one over the other, then that is what is read after the patch. -/
theorem decode_mergePatch {onto : α → Option α → α} (hfields : ∀ a, f.encode a = .obj (fields a))
    (hplain : ∀ a, ∀ c ∈ fields a, c.2.isPlain) (hundoes : ∀ a, f.Undoes 1 a)
    (hnone : ∀ new, onto new none = new)
    (hover : ∀ new old key, (mergePatch (f.encode old) (f.encode new)).get? key =
      (f.encode (onto new (some old))).get? key)
    (new : α) (old : Option α) :
    Json.decode f.decode (mergePatch ((old.map f.encode).getD .null) (f.encode new)) = .ok (onto new old) := by
  have hpatched (target : Json) : mergePatch target (f.encode new) =
      .obj (mergeMembers target.membersOrNone (fields new)) := by rw [hfields, mergePatch]
  cases old with
  | none =>
    have hunique := uniqueKeys_mergeMembers uniqueKeys_nil (fields new)
    rw [Option.map_none, Option.getD_none, hpatched, hnone]
    refine decode_of_get? hfields (hundoes _) hunique fun key => ?_
    rw [hfields]
    exact (get?_mergeMembers (hplain new) [] key).trans (Option.or_none ..)
  | some old =>
    have hold : UniqueKeys (f.encode old).membersOrNone := by
      have htidy := (hundoes old).tidy
      rw [hfields] at htidy ⊢
      exact (tidy_obj_iff.1 htidy).1
    rw [Option.map_some, Option.getD_some, hpatched]
    refine decode_of_get? hfields (hundoes _) (uniqueKeys_mergeMembers hold _) fun key => ?_
    rw [← hpatched, hover]

end Json.Form

/-- What is read of a status that was written over a stored one. -/
theorem InstanceStatus.decode_mergePatch (new : InstanceStatus) (old : Option InstanceStatus) :
    decode form.decode (mergePatch ((old.map form.encode).getD .null) (form.encode new)) =
      .ok (new.over old) :=
  Form.decode_mergePatch form_encode members_plain undoes_form (fun _ => by simp [InstanceStatus.over])
    get?_mergePatch new old

/-- What is read of a status that was written over a stored one. -/
theorem PoolStatus.decode_mergePatch (new : PoolStatus) (old : Option PoolStatus) :
    decode form.decode (mergePatch ((old.map form.encode).getD .null) (form.encode new)) =
      .ok (new.over old) :=
  Form.decode_mergePatch form_encode members_plain undoes_form (fun _ => by simp [PoolStatus.over])
    get?_mergePatch new old

/-! ## Visits to an Instance -/

/-- The status that the step records, if it is answered with success. -/
def InstanceCall.filed? (answer : (t : InstanceStep) → t.Answer) : InstanceCall → Option InstanceStatus
  | .writeStatus name st => (answer (.cluster (.writeStatus name st))).toOption.map fun _ => st
  | _ => none

namespace Visit

/-- The statuses that the visit records, in order. -/
def filed (v : Visit) : List InstanceStatus := v.changes.filterMap (InstanceCall.filed? v.answer)

/-- The stored status after the visit, if nobody else writes it. -/
def stored (v : Visit) : Option InstanceStatus :=
  v.filed.foldl (fun old st => some (st.over old)) v.object.status

variable {v : Visit} {st : InstanceStatus}

theorem mem_filed (h : st ∈ v.filed) : v.filed = [st] ∧ v.object.Writes st := by
  obtain ⟨c, hc, hfiled⟩ := List.mem_filterMap.1 h
  cases v.mayChange hc with
  | @writeStatus st' hstays hwrites =>
    obtain ⟨_, -, rfl⟩ := Option.map_eq_some_iff.1 hfiled
    have hone : v.changes = [.writeStatus v.object.name st'] := by
      obtain ⟨c', hchanges⟩ := List.length_eq_one_iff.1
        (Nat.le_antisymm (v.length_changes hstays) (List.length_pos_of_mem hc))
      rw [hchanges] at hc ⊢
      rw [List.mem_singleton.1 hc]
    refine ⟨?_, hwrites⟩
    rw [filed, hone, List.filterMap_cons, hfiled]
    rfl
  | addFinalizer | deleteInstance | deleteNode | removeFinalizer => cases hfiled

/-- What a visit records stands over what was on record before. -/
theorem stored_of_mem_filed (h : st ∈ v.filed) : v.stored = some (st.over v.object.status) := by
  rw [stored, (mem_filed h).1]
  rfl

end Visit

/-! ## Passes over a pool -/

/-- What the step records of which pool. -/
def PoolStep.record? : PoolStep → Option (String × PoolStatus)
  | .cluster (.writeStatus name st) => some (name, st)
  | _ => none

/-- The status has a token if the older one has. -/
def PoolStatus.Covers (new : PoolStatus) (old : Option PoolStatus) : Prop :=
  new.token = none → old.bind (·.token) = none

/-- A status replaces an older one just if it covers it. -/
theorem PoolStatus.over_eq_iff {new : PoolStatus} {old : Option PoolStatus} :
    new.over old = new ↔ new.Covers old := by
  obtain ⟨phase, ready, requested, needed, token⟩ := new
  cases token <;> simp [PoolStatus.over, Covers]

theorem PoolStep.record?_of_passive {t : PoolStep} (ht : t.passive = true) : t.record? = none := by
  cases t with
  | cluster c =>
    cases c with
    | getSecret | listControlPlane => rfl
    | writeStatus | getService | listInstances | createInstance | deleteInstance => cases ht
  | announce | draw | readBootstrap | lock | unlock => rfl

namespace Pool

variable {p : Pool} {s : Settings} {b : Backoff} {st : PoolStatus} {answer : (t : PoolStep) → t.Answer}

theorem covers_of_some {token : String} (h : st.token = some token) : st.Covers p.status := by
  rw [PoolStatus.Covers, h]
  nofun

theorem covers_of_eq (h : st.token = p.statusOrNew.token) : st.Covers p.status := by
  rw [PoolStatus.Covers, h]
  cases hstatus : p.status <;> simp [statusOrNew, hstatus]

theorem token_settle (status : PoolStatus) (count : Int32) (fleet : Fleet) :
    (status.settle count fleet).token = status.token := by
  unfold PoolStatus.settle
  split <;> rfl

theorem WritesAt.covers {place : Place} (h : p.WritesAt place st) : st.Covers p.status := by
  cases h with
  | prepared | created => exact covers_of_some rfl
  | observed => exact covers_of_eq (token_settle ..)
  | removed => exact covers_of_eq rfl

/-- How many statuses can still be recorded. -/
def Place.records : Place → Nat
  | .ended => 0
  | .opened | .locked _ | .creating .. | .counted _ => 1

theorem Place.records_le_one (place : Place) : place.records ≤ 1 := by
  cases place with
  | ended => exact Nat.zero_le 1
  | opened | locked | creating | counted => exact Nat.le_refl 1

theorem May.records_le {place : Place} {t : PoolStep} {dest : t.Answer → Place} (h : May s p place t dest)
    (r : t.Answer) : t.record?.toList.length + (dest r).records ≤ place.records := by
  cases h with
  | look ht =>
    rw [PoolStep.record?_of_passive ht]
    exact Nat.le_of_eq (Nat.zero_add _)
  | unlock => exact Nat.zero_le _
  | lock | findIngress | listMissing | create | list | delete =>
    exact Nat.le_trans (Nat.le_of_eq (Nat.zero_add _)) (Place.records_le_one _)
  | record hwrites =>
    -- the answer ends the pass, and where a status is written, one can be
    cases r <;> cases hwrites <;> exact Nat.le_refl 1

/-- A pass records one status at most, which covers the one of the pool. -/
theorem records_of_pass (p : Pool) (s : Settings) (b : Backoff) (answer : (t : PoolStep) → t.Answer) :
    ((told answer (p.reconcile s) b).calls.filterMap PoolStep.record?).length ≤ 1 ∧
    ∀ w ∈ (told answer (p.reconcile s) b).calls.filterMap PoolStep.record?, w.2.Covers p.status := by
  have hfollows := pass_follows s b p
  refine ⟨hfollows.length_told Place.records fun hmay => hmay.records_le, fun w hw => ?_⟩
  obtain ⟨t, ht, hrecord⟩ := List.mem_filterMap.1 hw
  refine hfollows.told (I := fun _ => True) (P := fun t => ∀ w, t.record? = some w → w.2.Covers p.status)
    (fun hmay _ => ⟨fun w hw => ?_, trivial⟩) trivial t ht w hrecord
  cases hmay with
  | look ht =>
    rw [PoolStep.record?_of_passive ht] at hw
    cases hw
  | lock | unlock | findIngress | listMissing | create | list | delete => cases hw
  | record hwrites =>
    cases hw
    exact hwrites.covers

/-- The statuses that a pass with these steps records, in order. -/
def filed (answer : (t : PoolStep) → t.Answer) (ts : List PoolStep) : List PoolStatus :=
  (ts.filterMap PoolStep.record?).filterMap fun w =>
    (answer (.cluster (.writeStatus w.1 w.2))).toOption.map fun _ => w.2

/-- The stored status after statuses were recorded, if nobody else writes it. -/
def stored (p : Pool) (sts : List PoolStatus) : Option PoolStatus :=
  sts.foldl (fun old st => some (st.over old)) p.status

/-- What a pass records is stored as it is. -/
theorem stored_of_mem_filed
    (h : st ∈ filed answer (told answer (p.reconcile s) b).calls) :
    p.stored (filed answer (told answer (p.reconcile s) b).calls) = some st := by
  obtain ⟨w, hw, hfiled⟩ := List.mem_filterMap.1 h
  obtain ⟨hlength, hcovers⟩ := records_of_pass p s b answer
  obtain ⟨_, -, rfl⟩ := Option.map_eq_some_iff.1 hfiled
  obtain ⟨w', hone⟩ := List.length_eq_one_iff.1 (Nat.le_antisymm hlength (List.length_pos_of_mem hw))
  rw [hone, List.mem_singleton] at hw
  subst hw
  have hover : w.2.over p.status = w.2 :=
    PoolStatus.over_eq_iff.2 (hcovers w (hone ▸ List.mem_cons_self))
  rw [filed, hone, List.filterMap_cons, hfiled]
  exact congrArg some hover

end Pool

/-! ## Stored statuses -/

/-- A status that is written over an object reads back as it is just if it has every part that the stored
one has. Passes over pools always write such a status; passes over Instances do so, unless they end a
reinstallation and the device has no address of a kind that is on record. -/
theorem status_replaced_iff {members : List (String × Json)} (hunique : UniqueKeys members) :
    (∀ (old : Option InstanceStatus) (new : InstanceStatus),
      (Json.obj members).get? "status" = old.map InstanceStatus.form.encode →
      ∃ j st, (mergePatch (.obj members) (Instance.statusPatch new)).get? "status" = some j ∧
        decode InstanceStatus.form.decode j = .ok st ∧ (st = new ↔ new.Covers old)) ∧
    (∀ (old : Option PoolStatus) (new : PoolStatus),
      (Json.obj members).get? "status" = old.map PoolStatus.form.encode →
      ∃ j st, (mergePatch (.obj members) (Pool.statusPatch new)).get? "status" = some j ∧
        decode PoolStatus.form.decode j = .ok st ∧ (st = new ↔ new.Covers old)) ∧
    (∀ (v : Visit) (st : InstanceStatus), st ∈ v.filed →
      (v.stored = some st ↔ ¬v.object.Forgets st)) ∧
    ∀ (p : Pool) (s : Settings) (b : Backoff) (answer : (t : PoolStep) → t.Answer) (st : PoolStatus),
      st ∈ Pool.filed answer (told answer (p.reconcile s) b).calls →
      p.stored (Pool.filed answer (told answer (p.reconcile s) b).calls) = some st := by
  refine ⟨fun old new hstatus => ?_, fun old new hstatus => ?_, fun v st hst => ?_,
    fun p s b answer st => Pool.stored_of_mem_filed⟩
  · refine ⟨_, _, get?_mergePatch_singleton hunique rfl, ?_, InstanceStatus.over_eq_iff⟩
    rw [hstatus]
    exact InstanceStatus.decode_mergePatch new old
  · refine ⟨_, _, get?_mergePatch_singleton hunique rfl, ?_, PoolStatus.over_eq_iff⟩
    rw [hstatus]
    exact PoolStatus.decode_mergePatch new old
  · rw [Visit.stored_of_mem_filed hst, Option.some.injEq]
    exact (Visit.mem_filed hst).2.over_eq_iff

namespace Visit

/-- A visit at the end of a reinstallation, after which the device has these public addresses. -/
def reinstalled (publicIp : Option String) : Visit where
  settings := .standard
  object := {
    metadata := { name := some "edge-a", annotations := some (Dict.ofList [(Names.tokenKey, "token")]) }
    spec := { projectId := some "project" }
    status := some { phase := .reinstalling, instanceId := some "device-1", publicIp := some "192.0.2.1" } }
  memory := {}
  answer
    | .cluster (.writeStatus ..) | .cluster (.addFinalizer _) | .cluster (.removeFinalizer _)
    | .cluster (.deleteInstance _) | .cluster (.deleteNode _) => .ok ()
    | .cluster (.getNode _) => .ok none
    | .device (.status ..) => .ok (some { id := "device-1", state := .active, publicIpv4 := publicIp })
    | .device (.find ..) | .device (.create ..) | .device (.delete ..) | .device (.reconfigure ..) =>
      .error (.cluster (.unavailable "timeout"))
    | .announce _ => ()
    | .clock => ⟨0⟩

/-- The status that the visit computes. -/
def computed (publicIp : Option String) : InstanceStatus where
  phase := .ready
  instanceId := some "device-1"
  deviceState := some "active"
  publicIp := publicIp

theorem filed_reinstalled (publicIp : Option String) :
    (reinstalled publicIp).filed = [computed publicIp] := rfl

end Visit

/-- The device has a new address, which is stored. -/
theorem status_replaced_new_address :
    UniqueKeys [("status", InstanceStatus.form.encode {})] ∧
    (∃ j, (mergePatch (.obj [("status", InstanceStatus.form.encode {})])
        (Instance.statusPatch (Visit.computed none))).get? "status" = some j ∧
      decode InstanceStatus.form.decode j = .ok (Visit.computed none)) ∧
    Visit.computed (some "192.0.2.2") ∈ (Visit.reinstalled (some "192.0.2.2")).filed ∧
    (Visit.reinstalled (some "192.0.2.2")).stored = some (Visit.computed (some "192.0.2.2")) := by
  have hunique : UniqueKeys [("status", InstanceStatus.form.encode {})] := by simp [UniqueKeys]
  have hfiled : Visit.computed (some "192.0.2.2") ∈ (Visit.reinstalled (some "192.0.2.2")).filed := by
    rw [Visit.filed_reinstalled]
    exact List.mem_cons_self
  obtain ⟨hreplaced, -, hstored, -⟩ := status_replaced_iff hunique
  refine ⟨hunique, ?_, hfiled, (hstored _ _ hfiled).2 fun hforgets => ?_⟩
  · obtain ⟨j, st, hj, hread, hst⟩ := hreplaced (some {}) (Visit.computed none) rfl
    have hcovers : (Visit.computed none).Covers (some {}) := by
      simp [InstanceStatus.Covers, InstanceStatus.parts]
    exact ⟨j, hj, hst.2 hcovers ▸ hread⟩
  · rcases hforgets.address with ⟨hnone, -⟩ | ⟨-, hsome⟩
    · cases hnone
    · exact hsome rfl

/-- The device has no address any more, but the old one stays. -/
theorem old_address_stays :
    (∃ j, (mergePatch (.obj [("status", InstanceStatus.form.encode (Visit.computed (some "192.0.2.1")))])
        (Instance.statusPatch (Visit.computed none))).get? "status" = some j ∧
      decode InstanceStatus.form.decode j = .ok (Visit.computed (some "192.0.2.1"))) ∧
    Visit.computed none ∈ (Visit.reinstalled none).filed ∧
    (Visit.reinstalled none).stored = some (Visit.computed (some "192.0.2.1")) := by
  refine ⟨⟨_, get?_mergePatch_singleton (by simp [UniqueKeys]) rfl, ?_⟩, ?_, rfl⟩
  · exact InstanceStatus.decode_mergePatch (Visit.computed none) (some (Visit.computed (some "192.0.2.1")))
  · rw [Visit.filed_reinstalled]
    exact List.mem_cons_self

end BareMetal
