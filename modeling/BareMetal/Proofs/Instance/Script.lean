import BareMetal.Instance.Pass
import BareMetal.Proofs.Script

/-!
# The script of passes over an Instance

What a pass over an Instance may do, from place to place (`Instance.May`), and that every pass does so whatever
its steps are answered with (`Instance.reconcile_follows`): one lemma for each function, from the steps up. A
pass fails as a call did or as a check does, or because a device was requested whose id is not on record
(`Instance.Fails`).
-/

namespace BareMetal

open InstancePass

/-! ## The script -/

namespace Instance

/-- Where a pass over an Instance is. -/
inductive Place
  /-- Nothing was done yet. -/
  | opened
  /-- No device has the name of the Instance. -/
  | missing (c : Credentials)
  /-- A device was found or made. -/
  | obtained (d : DeviceStatus)
  /-- The recorded device was looked at. -/
  | polled (d : DeviceStatus)
  /-- The device got its final configuration. -/
  | reconfigured (d : DeviceStatus)
  /-- The device was given back. -/
  | released
  /-- The Node was given back as well. -/
  | cleared
  /-- The pass has changed what it is to change. -/
  | ended
  /-- A call failed. -/
  | failed (f : Failure)

/-- Where the answer to a call leads. -/
def Place.after {α : Type} (dest : α → Place) : Except Failure α → Place
  | .ok a => dest a
  | .error f => .failed f

theorem Place.forall_after {α : Type} {P : Place → Prop} {dest : α → Place} {r : Except Failure α}
    (hfailed : ∀ f, r = .error f → P (.failed f)) (hdest : ∀ a, r = .ok a → P (dest a)) : P (after dest r) := by
  cases r with
  | ok a => exact hdest a rfl
  | error f => exact hfailed f rfl

/-- The statuses that a pass over the Instance writes at the place. -/
inductive WritesAt (i : Instance) : Place → InstanceStatus → Prop
  | obtained {d} : i.phase = .empty → i.WritesAt (.obtained d) { i.statusOrNew with
      phase := .submitted, instanceId := some d.id, deviceState := some d.state.name }
  | pending {d} : i.phase = .submitted ∨ i.phase = .reinstalling →
    i.WritesAt (.polled d) { i.statusOrNew with deviceState := some d.state.name }
  | reconfigured {d} : i.phase = .submitted → i.WritesAt (.reconfigured d) { i.statusOrNew with
      phase := .reinstalling, deviceState := some d.state.name }
  | ready {d} : i.phase = .reinstalling → i.WritesAt (.polled d) { i.statusOrNew with
      phase := .ready, deviceState := some d.state.name, publicIp := d.publicIpv4, privateIp := d.privateIpv4 }
  | managed : i.phase = .ready → i.WritesAt .opened { i.statusOrNew with phase := .managed }

/-- The script of a pass over the Instance. -/
inductive May (i : Instance) : Script InstanceStep InstanceStep.Answer Place
  | announce {st e} : i.May st (.announce e) fun _ => st
  | clock {st} : i.May st .clock fun _ => st
  | getNode : i.May .opened (.cluster (.getNode i.name)) (.after fun _ => .opened)
  | addFinalizer : i.isDeleting = false →
    i.May .opened (.cluster (.addFinalizer i.name)) (.after fun _ => .ended)
  | find {c} : Credentials.ofInstance i = .ok c → i.May .opened (.device (.find c i.name))
    (.after fun d? => d?.elim (.missing c) .obtained)
  | create {c} : i.phase = .empty → i.metadata.hasFinalizer Names.deprovision = true →
    Credentials.ofInstance i = .ok c → i.May (.missing c) (.device (.create c i)) (.after .obtained)
  | status {c id} : i.deviceId? = some id →
    i.May .opened (.device (.status c id)) (.after fun d? => d?.elim .opened .polled)
  | reconfigure {c d} : i.phase = .submitted → d.state.isSettled = true →
    i.May (.polled d) (.device (.reconfigure c i)) (.after fun _ => .reconfigured d)
  | record {st status} : i.isDeleting = false → i.WritesAt st status →
    i.May st (.cluster (.writeStatus i.name status)) (.after fun _ => .ended)
  | deleteInstance : i.isDeleting = false →
    i.May .opened (.cluster (.deleteInstance i.name)) (.after fun _ => .ended)
  | deprovision {c id} : i.isDeleting = true → i.deviceId? = some id →
    i.May .opened (.device (.delete c id)) (.after fun _ => .released)
  | deleteNode {st} : i.isDeleting = true → st = .released ∨ st = .opened ∧ i.deviceId? = none →
    i.May st (.cluster (.deleteNode i.name)) (.after fun _ => .cleared)
  | removeFinalizer : i.isDeleting = true →
    i.May .cleared (.cluster (.removeFinalizer i.name)) (.after fun _ => .ended)

/-- How a pass over the Instance fails at the place. -/
inductive Fails (i : Instance) : Failure → Place → Prop
  | call {f} : i.Fails f (.failed f)
  | check {f st} : (∀ context message, f ≠ .internal context message) → i.Fails f st
  | unrecorded {f st} : i.phase = .submitted ∨ i.phase = .reinstalling → i.deviceId? = none → i.Fails f st

/-! ## Steps -/

/-- From places that satisfy `P`, the part of a pass follows the script, its result satisfies `Q` where it ends,
and it fails as it can. -/
abbrev Walks (i : Instance) {α : Type} (P : Place → Prop) (x : InstancePass α) (Q : α → Place → Prop) : Prop :=
  ((Logic.ofScript i.May).withMemory InstanceMemory).LeadsOr i.Fails P x Q

variable {i : Instance} {s : Settings} {c : Credentials} {α : Type} {P : Place → Prop} {st : Place}

theorem walks_cluster {c : InstanceCall} {dest : c.Result → Place} (hc : i.May st (.cluster c) (.after dest)) :
    i.Walks (· = st) (cluster c) fun a => (· = dest a) := by
  rintro _ rfl
  refine Logic.wp_scripted hc fun r => ⟨?_, ?_⟩
  · rintro a rfl
    rfl
  · rintro f rfl
    exact .call

theorem walks_device {c : DeviceCall} {dest : c.Result → Place} (hc : i.May st (.device c) (.after dest)) :
    i.Walks (· = st) (device c) fun a => (· = dest a) := by
  rintro _ rfl
  refine Logic.wp_scripted hc fun r => ⟨?_, ?_⟩
  · rintro a rfl
    rfl
  · rintro f rfl
    exact .call

theorem walks_announce {e : Event} : i.Walks P (announce e) fun _ => P :=
  Logic.leadsOr_lift fun _ hst => Logic.wp_scripted .announce fun _ => hst

theorem walks_clock : i.Walks P clock fun _ => P :=
  Logic.leadsOr_lift fun _ hst => Logic.wp_scripted .clock fun _ => hst

theorem walks_memory : i.Walks P memory fun _ => P :=
  Logic.leadsOr_lift fun _ hst => Logic.wp_get fun _ => hst

theorem walks_remember {f : InstanceMemory → InstanceMemory} : i.Walks P (remember f) fun _ => P :=
  Logic.leadsOr_lift fun _ hst => Logic.wp_modify hst

/-- The failures of checks are not internal. -/
theorem walks_check {r : Except Failure α} (hr : ∀ context message, r ≠ .error (.internal context message)) :
    i.Walks P (check r) fun a st => r = .ok a ∧ P st :=
  Logic.leadsOr_check (fun _ ha _ hst => ⟨ha, hst⟩) fun _ hf _ _ =>
    .check fun context message he => hr context message (he ▸ hf)

theorem walks_pure {a : α} : i.Walks P (pure a) fun _ _ => True := Logic.leadsOr_pure fun _ _ => trivial

/-- A last announcement. -/
theorem walks_finish {e : Event} {a : α} : i.Walks P (do announce e; pure a) fun _ _ => True :=
  walks_announce.bind fun _ => walks_pure

theorem walks_record {status : InstanceStatus} (hstays : i.isDeleting = false) (h : i.WritesAt st status) :
    i.Walks (· = st) (i.record status) fun _ _ => True :=
  Logic.LeadsOr.weaken (walks_cluster (.record hstays h)) fun _ _ _ => trivial

/-! ## Checks -/

theorem credentials_ne_internal (context message : String) :
    Credentials.ofInstance i ≠ .error (.internal context message) := by
  unfold Credentials.ofInstance
  dsimp only
  split
  · nofun
  · split <;> nofun

theorem cleanupWait_ne_internal (context message : String) :
    i.spec.cleanupWait ≠ .error (.internal context message) := by
  unfold InstanceSpec.cleanupWait
  split
  · nofun
  · split <;> nofun

theorem checkSpec_ne_internal (context message : String) :
    i.checkSpec ≠ .error (.internal context message) := by
  have hwait := cleanupWait_ne_internal (i := i) context message
  have hrest : (do let _ ← i.spec.cleanupWait : Except Failure Unit) ≠
      .error (.internal context message) := by
    cases hcleanup : i.spec.cleanupWait with
    | ok => nofun
    | error f =>
      intro h
      cases h
      exact hwait hcleanup
  unfold checkSpec
  split
  · exact hrest
  · split
    · exact hrest
    · nofun

/-! ## One lemma for each function -/

theorem walks_obtainDevice (hphase : i.phase = .empty)
    (hfinalizer : i.metadata.hasFinalizer Names.deprovision = true) (hc : Credentials.ofInstance i = .ok c) :
    i.Walks (· = .opened) (i.obtainDevice c) fun r => (· = .obtained r.1) := by
  refine (walks_device (.find hc)).bind fun d? => ?_
  cases d? with
  | some d => exact Logic.leadsOr_pure fun _ hst => hst
  | none =>
    exact (walks_device (.create hphase hfinalizer hc)).bind fun d => Logic.leadsOr_pure fun _ hst => hst

theorem walks_submit (hstays : i.isDeleting = false) (hphase : i.phase = .empty) :
    i.Walks (· = .opened) (i.submit s) fun _ _ => True := by
  unfold submit
  split
  · exact (walks_cluster (.addFinalizer hstays)).bind fun _ => walks_pure
  · next hfinalizer =>
    refine (walks_check checkSpec_ne_internal).bind fun _ => ?_
    refine Logic.LeadsOr.bind ((walks_check credentials_ne_internal).strengthen fun _ h => h.2) fun c st h => ?_
    have hobtain := walks_obtainDevice hphase (by simpa using hfinalizer) h.1
    refine Logic.LeadsOr.bind hobtain (fun ⟨d, reason⟩ => ?_) st h.2
    exact (walks_record hstays (.obtained hphase)).bind fun _ => walks_finish

/-- Where a device was requested, its id is to be on record. -/
theorem walks_pollDevice (hphase : i.phase = .submitted ∨ i.phase = .reinstalling) :
    i.Walks (· = .opened) (i.pollDevice c) fun d? => (· = d?.elim .opened .polled) := by
  unfold pollDevice
  split
  · next hid => exact Logic.leadsOr_throw fun _ _ => .unrecorded hphase hid
  · next id hid => exact walks_device (.status hid)

theorem walks_observePending {d : DeviceStatus} (hstays : i.isDeleting = false)
    (hphase : i.phase = .submitted ∨ i.phase = .reinstalling) :
    i.Walks (· = .polled d) (i.observePending d) fun _ _ => True := by
  have hrest : i.Walks (· = .polled d) (if i.statusOrNew.deviceState = some d.state.name then pure ()
      else i.record { i.statusOrNew with deviceState := some d.state.name }) fun _ _ => True := by
    split
    · exact walks_pure
    · exact walks_record hstays (.pending hphase)
  unfold observePending
  dsimp only
  split
  · exact walks_announce.bind fun _ => hrest
  · exact hrest

theorem walks_awaitProvisioned (hstays : i.isDeleting = false) (hphase : i.phase = .submitted) :
    i.Walks (· = .opened) (i.awaitProvisioned s) fun _ _ => True := by
  refine ((walks_check credentials_ne_internal).weaken fun _ _ h => h.2).bind fun c => ?_
  refine (walks_pollDevice (.inl hphase)).bind fun d? => ?_
  cases d? with
  | none => exact walks_pure
  | some d =>
    dsimp only
    split
    · next hsettled =>
      refine (walks_device (.reconfigure hphase hsettled)).bind fun _ => ?_
      exact (walks_record hstays (.reconfigured hphase)).bind fun _ => walks_finish
    · exact (walks_observePending hstays (.inl hphase)).bind fun _ => walks_pure

theorem walks_awaitReinstalled (hstays : i.isDeleting = false) (hphase : i.phase = .reinstalling) :
    i.Walks (· = .opened) (i.awaitReinstalled s) fun _ _ => True := by
  refine ((walks_check credentials_ne_internal).weaken fun _ _ h => h.2).bind fun c => ?_
  refine (walks_pollDevice (.inr hphase)).bind fun d? => ?_
  cases d? with
  | none => exact walks_pure
  | some d =>
    dsimp only
    split
    · exact (walks_record hstays (.ready hphase)).bind fun _ => walks_finish
    · exact (walks_observePending hstays (.inr hphase)).bind fun _ => walks_pure

theorem walks_replace {reason : Reason} {note : String} (hstays : i.isDeleting = false) :
    i.Walks (· = .opened) (i.replace reason note) fun _ _ => True :=
  walks_announce.bind fun _ => (walks_cluster (.deleteInstance hstays)).bind fun _ => walks_pure

theorem walks_awaitMember (hstays : i.isDeleting = false) (hphase : i.phase = .ready) :
    i.Walks (· = .opened) (i.awaitMember s) fun _ _ => True := by
  refine (walks_cluster .getNode).bind fun n? => ?_
  cases n? with
  | none => exact walks_pure
  | some n =>
    dsimp only
    split
    · exact walks_replace hstays
    · exact (walks_record hstays (.managed hphase)).bind fun _ => walks_finish

theorem walks_watchMember (hstays : i.isDeleting = false) :
    i.Walks (· = .opened) i.watchMember fun _ _ => True := by
  refine ((walks_check cleanupWait_ne_internal).weaken fun _ _ h => h.2).bind fun wait => ?_
  refine (walks_cluster .getNode).bind fun node => ?_
  refine walks_clock.bind fun now => walks_memory.bind fun m => ?_
  dsimp only
  cases assessMember node wait (m.unready.get? i.name) now with
  | recheck => exact walks_remember.bind fun _ => walks_pure
  | healthy => exact Logic.LeadsOr.bind walks_remember fun _ => walks_pure
  | lost => exact Logic.LeadsOr.bind walks_remember fun _ => walks_replace hstays
  | unhealthy => exact Logic.LeadsOr.bind walks_remember fun _ => walks_replace hstays

theorem walks_remove (hdeleting : i.isDeleting = true) :
    i.Walks (· = .opened) i.remove fun _ _ => True := by
  refine walks_remember.bind fun _ => ?_
  split
  · exact walks_pure
  · extract_lets release
    have hrelease {st : Place} (hst : st = .released ∨ st = .opened ∧ i.deviceId? = none) (u : Unit) :
        i.Walks (· = st) (release u) fun _ _ => True := by
      refine (walks_cluster (.deleteNode hdeleting hst)).bind fun _ => ?_
      exact (walks_cluster (.removeFinalizer hdeleting)).bind fun _ => walks_pure
    split
    · next hid => exact hrelease (.inr ⟨rfl, hid⟩) ()
    · next id hid =>
      refine ((walks_check credentials_ne_internal).weaken fun _ _ h => h.2).bind fun c => ?_
      refine (walks_device (.deprovision hdeleting hid)).bind fun _ => ?_
      exact walks_announce.bind (hrelease (.inl rfl))

theorem walks_advance : i.Walks (· = .opened) (i.advance s) fun _ _ => True := by
  unfold advance
  split
  · next hdeleting => exact walks_remove hdeleting
  · next hdeleting =>
    have hstays : i.isDeleting = false := Bool.eq_false_iff.2 hdeleting
    split
    · next h => exact walks_submit hstays h
    · next h => exact walks_awaitProvisioned hstays h
    · next h => exact walks_awaitReinstalled hstays h
    · next h => exact walks_awaitMember hstays h
    · exact walks_watchMember hstays

theorem walks_reconcile : i.Walks (· = .opened) (i.reconcile s) fun _ _ => True := by
  refine walks_advance.attempt.bind fun r => ?_
  cases r with
  | ok next => exact walks_remember.bind fun _ => walks_pure
  | error f =>
    -- the failure is told to the log and thrown again
    refine Logic.LeadsOr.strengthen (P := i.Fails f) ?_ fun _ h => h.2 f rfl
    dsimp only
    split
    · exact Logic.leadsOr_throw fun _ h => h
    · exact walks_announce.bind fun _ => Logic.leadsOr_throw fun _ h => h

/-- Every pass over an Instance follows the script, and fails as it can. -/
theorem reconcile_follows (i : Instance) (s : Settings) (m : InstanceMemory) :
    ((i.reconcile s).run.run m).Follows i.May (fun r st => ∀ f, r.1 = .error f → i.Fails f st) .opened :=
  (walks_reconcile .opened rfl m).mono fun _ _ h => h.2

end Instance

end BareMetal
