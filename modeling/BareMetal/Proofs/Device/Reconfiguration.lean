import BareMetal.Proofs.Device.Steps

/-!
# Reconfiguring a device

A device is reconfigured by a fixed row of steps that is known once the device is read: the port changes of
the plan, the boot settings that differ, and the reinstall. The runs of `Provisioning.reconfigure` are these
steps up to the first that fails (`Provisioning.runs_reconfigure_iff`), whatever the requests are answered with.
-/

namespace BareMetal

/-- The hardware address of the first port with a name. -/
def Device.hardwareAddress? (d : Device) (name : String) : Option String := (d.port? name).bind (·.data.mac)

/-- The second device is the first one as it is read after the change of its boot settings was stored, with
the same ports, whatever else was changed on them. -/
structure BootChange.Stored (c : BootChange) (d d' : Device) : Prop where
  ipxeScriptUrl : d'.ipxeScriptUrl = c.ipxeScriptUrl.or d.ipxeScriptUrl
  userdata : d'.userdata = c.userdata.or d.userdata
  ports : ∀ name, d'.hardwareAddress? name = d.hardwareAddress? name

namespace Provisioning

variable {h : History} {result : Except DeviceFailure Unit} {i : Instance} {d d' : Device} {id script : String}

/-! ## The steps of a reconfiguration -/

/-- The changes of ports that the wanted topology takes. -/
def portSteps (i : Instance) (d : Device) : Steps :=
  match i.spec.wantedNetworking? with
  | none => []
  | some n =>
    match Plan.make d n with
    | .error f => [.error f]
    | .ok plan => plan.map fun a => .ok (.changePort a.portId a.change)

theorem portSteps_cases (i : Instance) (d : Device) :
    (∃ n f, i.spec.wantedNetworking? = some n ∧ Plan.make d n = .error f ∧ portSteps i d = [.error f]) ∨
      ∀ s ∈ portSteps i d, ∃ port change, s = .ok (.changePort port change) := by
  unfold portSteps
  cases i.spec.wantedNetworking? with
  | none => exact .inr (List.forall_mem_nil _)
  | some n =>
    dsimp only
    cases hplan : Plan.make d n with
    | error f => exact .inl ⟨n, f, rfl, hplan, rfl⟩
    | ok plan =>
      refine .inr fun s hs => ?_
      obtain ⟨a, -, rfl⟩ := List.mem_map.1 hs
      exact ⟨a.portId, a.change, rfl⟩

theorem changePort_of_mem {r : DeviceRequest} (h : .ok r ∈ portSteps i d) :
    ∃ port change, r = .changePort port change := by
  rcases portSteps_cases i d with ⟨n, f, -, -, hports⟩ | hports
  · simp [hports] at h
  · obtain ⟨port, change, heq⟩ := hports _ h
    exact ⟨port, change, Except.ok.inj heq⟩

/-- What is wanted, unless it is there already. -/
def differing (current : Option String) (wanted : String) : Option String :=
  if current = some wanted then none else some wanted

/-- The boot script with which the device of an Instance is reinstalled. -/
def bootScript (i : Instance) (defaultScript : String) : String := i.reinstallScript?.getD defaultScript

/-- The change of the boot settings that differ, if any does. -/
def bootSteps (i : Instance) (id script : String) (d : Device) : Steps :=
  match finalUserdata i d with
  | .error f => [.error f]
  | .ok userdata =>
    if d.ipxeScriptUrl = some (bootScript i script) ∧ d.userdata = some userdata then []
    else [.ok (.update id
      ⟨differing d.ipxeScriptUrl (bootScript i script), differing d.userdata userdata⟩)]

/-- The reinstall, unless it is under way. -/
def reinstallSteps (id : String) (d : Device) : Steps :=
  if d.deviceState = .reinstalling then [] else [.ok (.reinstall id)]

/-- The steps by which the device of an Instance is reconfigured, once it is read. -/
def stepsFor (i : Instance) (id script : String) (d : Device) : Steps :=
  portSteps i d ++ bootSteps i id script d ++ reinstallSteps id d

theorem forIn_changes (plan : List PortAction) :
    (forIn plan PUnit.unit fun a _ => do
      let _ ← request (.changePort a.portId a.change)
      pure (ForInStep.yield PUnit.unit) : Provisioning Unit) =
        take (plan.map fun a => .ok (.changePort a.portId a.change)) := by
  induction plan with
  | nil => rfl
  | cons a plan ih =>
    rw [List.forIn_cons, List.map_cons, take, ← ih]
    simp only [bind_assoc, pure_bind]

theorem isEmpty_bootChange_iff {userdata : String} : (bootChange i d userdata script).isEmpty = true ↔
    d.ipxeScriptUrl = some (bootScript i script) ∧ d.userdata = some userdata := by
  simp [BootChange.isEmpty, bootChange, bootScript]

theorem take_reinstallSteps (id : String) (d : Device) : take (reinstallSteps id d) =
    if d.deviceState = .reinstalling then pure () else request (.reinstall id) := by
  unfold reinstallSteps
  split
  · rfl
  · exact bind_pure (request (.reinstall id))

/-- What comes after the ports. -/
theorem take_bootSteps (i : Instance) (id script : String) (d : Device) :
    take (bootSteps i id script d ++ reinstallSteps id d) = (do
      let userdata ← reconfigure.liftExcept (finalUserdata i d)
      if (bootChange i d userdata script).isEmpty = true then
        if d.deviceState = .reinstalling then pure () else request (.reinstall id)
      else do
        let _ ← request (.update id (bootChange i d userdata script))
        if d.deviceState = .reinstalling then pure () else request (.reinstall id)) := by
  rw [← take_reinstallSteps, bootSteps]
  cases finalUserdata i d with
  | error f => rfl
  | ok userdata =>
    show _ = if _ then _ else _
    dsimp only
    by_cases hempty : (bootChange i d userdata script).isEmpty = true
    · rw [if_pos hempty, if_pos (isEmpty_bootChange_iff.1 hempty)]
      rfl
    · rw [if_neg hempty, if_neg (mt isEmpty_bootChange_iff.2 hempty)]
      rfl

theorem reconfigure_of_some (hid : i.deviceId? = some id) : reconfigure i script = (do
    let d? ← request (.get id)
    match d? with
    | none => throw (.absent s!"device {id}")
    | some d => take (stepsFor i id script d)) := by
  unfold reconfigure
  simp only [hid]
  refine congrArg (request (.get id) >>= ·) (funext fun d? => ?_)
  cases d? with
  | none => rfl
  | some d =>
    dsimp only
    rw [stepsFor, List.append_assoc, take_append, take_bootSteps, portSteps]
    cases i.spec.wantedNetworking? with
    | none => rfl
    | some n =>
      dsimp only
      cases Plan.make d n with
      | error f => rfl
      | ok plan =>
        dsimp only
        rw [← forIn_changes]
        rfl

/-- A run of a reconfiguration: if an id is recorded, the device is read, and if there is one, its steps are
taken up to the first that fails. -/
def Course (i : Instance) (script : String) (h : History) (result : Except DeviceFailure Unit) : Prop :=
  match i.deviceId? with
  | none => h = [] ∧ result = .error (.absent s!"device id of instance {i.name}")
  | some id => (∃ f, h = [⟨.get id, .error f⟩] ∧ result = .error f) ∨
      h = [⟨.get id, .ok none⟩] ∧ result = .error (.absent s!"device {id}") ∨
      ∃ d h', h = ⟨.get id, .ok (some d)⟩ :: h' ∧ Taken (stepsFor i id script d) h' result

theorem runs_reconfigure_iff :
    (reconfigure i script).run.Runs h result ↔ Course i script h result := by
  unfold Course
  cases hid : i.deviceId? with
  | none =>
    unfold reconfigure
    simp only [hid]
    exact Program.runs_done_iff
  | some id =>
    rw [reconfigure_of_some hid, run_request_bind, Program.runs_call_iff]
    constructor
    · rintro ⟨a, h', rfl, hruns⟩
      cases a with
      | error f =>
        obtain ⟨rfl, rfl⟩ := Program.runs_done_iff.1 hruns
        exact .inl ⟨f, rfl, rfl⟩
      | ok d? =>
        cases d? with
        | none =>
          obtain ⟨rfl, rfl⟩ := Program.runs_done_iff.1 hruns
          exact .inr (.inl ⟨rfl, rfl⟩)
        | some d => exact .inr (.inr ⟨d, h', rfl, runs_take_iff.1 hruns⟩)
    · rintro (⟨f, rfl, rfl⟩ | ⟨rfl, rfl⟩ | ⟨d, h', rfl, htaken⟩)
      · exact ⟨.error f, [], rfl, Program.runs_done_iff.2 ⟨rfl, rfl⟩⟩
      · exact ⟨.ok none, [], rfl, Program.runs_done_iff.2 ⟨rfl, rfl⟩⟩
      · exact ⟨.ok (some d), h', rfl, runs_take_iff.2 htaken⟩

/-! ## Reconfiguring again -/

theorem or_differing (current : Option String) (wanted : String) :
    (differing current wanted).or current = some wanted := by
  unfold differing
  split
  · next h => exact h
  · rfl

theorem mapM_eq_ok_of_imp {ε : Type} {f g : α → Except ε β} (hfg : ∀ a b, f a = .ok b → g a = .ok b)
    {as : List α} {bs : List β} (h : as.mapM f = .ok bs) : as.mapM g = .ok bs := by
  induction as generalizing bs with
  | nil => exact h
  | cons a as ih =>
    rw [List.mapM_cons] at h ⊢
    cases ha : f a with
    | error e =>
      rw [ha] at h
      cases h
    | ok b =>
      rw [ha] at h
      rw [hfg a b ha]
      cases has : as.mapM f with
      | error e =>
        rw [has] at h
        cases h
      | ok bs =>
        rw [has] at h
        rw [ih has]
        exact h

/-- The management addresses depend on the Instance and the ports alone. -/
theorem managementMacs_of_ports {macs : List String}
    (hports : ∀ name, d'.hardwareAddress? name = d.hardwareAddress? name)
    (h : managementMacs i d = .ok macs) : managementMacs i d' = .ok macs := by
  refine mapM_eq_ok_of_imp (fun name mac hmac => ?_) h
  have hname : (d'.port? name).bind (·.data.mac) = (d.port? name).bind (·.data.mac) := hports name
  rw [hname]
  split at hmac
  · exact hmac
  · cases hmac

theorem finalUserdata_of_ports {userdata : String}
    (hports : ∀ name, d'.hardwareAddress? name = d.hardwareAddress? name)
    (h : finalUserdata i d = .ok userdata) : finalUserdata i d' = .ok userdata := by
  unfold finalUserdata at h ⊢
  cases hmacs : managementMacs i d with
  | error f =>
    rw [hmacs] at h
    cases h
  | ok macs =>
    rw [hmacs] at h
    rw [managementMacs_of_ports hports hmacs]
    exact h

/-- An update among the steps carries what differs. -/
theorem update_of_mem {id' : String} {c : BootChange} (h : .ok (.update id' c) ∈ stepsFor i id script d) :
    ∃ userdata, finalUserdata i d = .ok userdata ∧
      ¬(d.ipxeScriptUrl = some (bootScript i script) ∧ d.userdata = some userdata) ∧
      c = ⟨differing d.ipxeScriptUrl (bootScript i script), differing d.userdata userdata⟩ := by
  rcases List.mem_append.1 h with h | h
  · rcases List.mem_append.1 h with h | h
    · obtain ⟨port, change, heq⟩ := changePort_of_mem h
      cases heq
    · unfold bootSteps at h
      cases hdata : finalUserdata i d with
      | error f => simp [hdata] at h
      | ok userdata =>
        rw [hdata] at h
        dsimp only at h
        split at h
        · cases h
        · next hdiffers =>
          cases List.mem_singleton.1 h
          exact ⟨userdata, rfl, hdiffers, rfl⟩
  · unfold reinstallSteps at h
    split at h
    · cases h
    · cases List.mem_singleton.1 h

/-- After the update was stored, nothing is left to be updated. -/
theorem no_update_of_stored {id' id'' : String} {c c' : BootChange}
    (h : .ok (.update id' c) ∈ stepsFor i id script d) (hstored : c.Stored d d') :
    .ok (.update id'' c') ∉ stepsFor i id script d' := by
  obtain ⟨userdata, hdata, -, rfl⟩ := update_of_mem h
  intro hagain
  obtain ⟨userdata', hdata', hdiffers, -⟩ := update_of_mem hagain
  rw [finalUserdata_of_ports hstored.ports hdata] at hdata'
  cases hdata'
  exact hdiffers ⟨hstored.ipxeScriptUrl.trans (or_differing ..), hstored.userdata.trans (or_differing ..)⟩

theorem taken_of_course {d : Device} {id' : String} (hc : Course i script (⟨.get id', .ok (some d)⟩ :: h) result) :
    i.deviceId? = some id' ∧ Taken (stepsFor i id' script d) h result := by
  unfold Course at hc
  cases hid : i.deviceId? with
  | none =>
    rw [hid] at hc
    cases hc.1
  | some id =>
    rw [hid] at hc
    rcases hc with ⟨f, heq, -⟩ | ⟨heq, -⟩ | ⟨d', h', heq, ht⟩
    · cases heq
    · cases heq
    · cases heq
      exact ⟨rfl, ht⟩

/-- The runs of a reconfiguration are exactly the steps for the device that is read, up to the first that
fails. When the update of a run was stored, the next run makes none. -/
theorem reconfigures_exactly (i : Instance) (script : String) :
    (∀ h result, (reconfigure i script).run.Runs h result ↔ Course i script h result) ∧
    ∀ id id' d d' c answer h h' result result', ⟨.update id' c, answer⟩ ∈ h → c.Stored d d' →
      (reconfigure i script).run.Runs (⟨.get id, .ok (some d)⟩ :: h) result →
      (reconfigure i script).run.Runs (⟨.get id, .ok (some d')⟩ :: h') result' →
      ∀ e ∈ h', ∀ id c, e.1 ≠ .update id c := by
  refine ⟨fun h result => runs_reconfigure_iff, ?_⟩
  intro id id' d d' c answer h h' result result' hsent hstored hfirst hsecond e he id'' c' heq
  have hupdate := (taken_of_course (runs_reconfigure_iff.1 hfirst)).2.mem hsent
  have hagain := (taken_of_course (runs_reconfigure_iff.1 hsecond)).2.mem he
  rw [heq] at hagain
  exact no_update_of_stored hupdate hstored hagain

/-- A device that boots an older script, and has no userdata yet. -/
def outdated : Device where
  id := "d1"
  state := "active"
  ipxeScriptUrl := some "https://boot/shell.ipxe"
  ports := [⟨"e0", "eth0", "NetworkPort", none, ⟨some "aa:00:00:00:00:e0", false⟩, []⟩]

/-- The device after an update. -/
def updated (userdata : String) : Device :=
  { outdated with ipxeScriptUrl := some "https://boot/master.ipxe", userdata := some userdata }

/-- An Instance whose device is recorded. -/
def submitted : Instance where
  metadata := { name := some "edge-a" }
  status := some { phase := .submitted, instanceId := some "d1" }

/-- The update of a device, and its reinstall. -/
def updating (userdata : String) : History :=
  [⟨.update "d1" ⟨some "https://boot/master.ipxe", some userdata⟩, .ok outdated⟩, ⟨.reinstall "d1", .ok ()⟩]

theorem updates_once : ∃ userdata,
    (reconfigure submitted "https://boot/master.ipxe").run.Runs
      (⟨.get "d1", .ok (some outdated)⟩ :: updating userdata) (.ok ()) ∧
    ∀ h result, (reconfigure submitted "https://boot/master.ipxe").run.Runs
      (⟨.get "d1", .ok (some (updated userdata))⟩ :: h) result → ∀ e ∈ h, ∀ id c, e.1 ≠ .update id c := by
  obtain ⟨userdata, hdata⟩ : ∃ userdata, finalUserdata submitted outdated = .ok userdata := ⟨_, rfl⟩
  obtain ⟨hruns, hagain⟩ := reconfigures_exactly submitted "https://boot/master.ipxe"
  have hboot : bootSteps submitted "d1" "https://boot/master.ipxe" outdated =
      [.ok (.update "d1" ⟨some "https://boot/master.ipxe", some userdata⟩)] := by
    rw [bootSteps, hdata]
    rfl
  have hsteps : stepsFor submitted "d1" "https://boot/master.ipxe" outdated = made (updating userdata) := by
    rw [stepsFor, hboot]
    rfl
  have hall : ∀ e ∈ updating userdata, Succeeded e :=
    List.forall_mem_cons.2 ⟨⟨_, rfl⟩, List.forall_mem_cons.2 ⟨⟨_, rfl⟩, List.forall_mem_nil _⟩⟩
  have hfirst := (hruns _ (.ok ())).2 (.inr (.inr ⟨outdated, updating userdata, rfl, hsteps, hall⟩))
  refine ⟨userdata, hfirst, fun h result hsecond => ?_⟩
  have hstored : BootChange.Stored ⟨some "https://boot/master.ipxe", some userdata⟩ outdated (updated userdata) :=
    ⟨rfl, rfl, fun _ => rfl⟩
  exact hagain "d1" "d1" outdated (updated userdata) _ _ (updating userdata) h _ result List.mem_cons_self hstored
    hfirst hsecond

end Provisioning

end BareMetal
