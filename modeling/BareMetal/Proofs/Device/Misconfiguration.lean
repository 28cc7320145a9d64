import BareMetal.Proofs.Device.Reconfiguration

/-!
# Configurations that fail

What a wanted configuration can be wrong about is found in two places: the plan fails before any port is
changed, the management ports and the boot document only after all of them are. Neither updates or reinstalls
the device (`Provisioning.configuration_failures`).
-/

namespace BareMetal

/-- A failure that comes from the wanted configuration and the device as it was read. -/
def DeviceFailure.isConfiguration : DeviceFailure → Bool
  | .unknownNetworkType _ | .missingPort .. | .bootDocument _ => true
  | .transport _ | .rejected .. | .absent _ => false

namespace Provisioning

variable {steps : Steps} {h : History} {f : DeviceFailure} {i : Instance} {d : Device} {id script : String}

/-- Steps that are all requests come before the first check that fails. -/
theorem exists_of_append_eq {before : History} {requests rest : Steps}
    (hrequests : ∀ s ∈ requests, ∃ r, s = .ok r)
    (heq : requests ++ steps = made before ++ .error f :: rest) :
    ∃ between, made before = requests ++ between ∧ steps = between ++ .error f :: rest := by
  rcases List.append_eq_append_iff.1 heq with ⟨between, hbefore, hsteps⟩ | ⟨between, hafter, hsteps⟩
  · exact ⟨between, hbefore, hsteps⟩
  · cases between with
    | nil =>
      refine ⟨[], ?_, hsteps.symm⟩
      rw [List.append_nil] at hafter ⊢
      exact hafter.symm
    | cons s between =>
      obtain ⟨rfl, -⟩ := List.cons.inj hsteps
      obtain ⟨r, hr⟩ := hrequests (.error f) (hafter ▸ by simp)
      cases hr

theorem bootSteps_cases (i : Instance) (id script : String) (d : Device) :
    (∃ f, finalUserdata i d = .error f ∧ bootSteps i id script d = [.error f]) ∨
      ∀ s ∈ bootSteps i id script d ++ reinstallSteps id d, ∃ r, s = .ok r := by
  unfold bootSteps reinstallSteps
  cases hdata : finalUserdata i d with
  | error f => exact .inl ⟨f, rfl, rfl⟩
  | ok userdata =>
    refine .inr fun s hs => ?_
    dsimp only at hs
    rcases List.mem_append.1 hs with hs | hs
    · split at hs
      · cases hs
      · exact ⟨_, List.mem_singleton.1 hs⟩
    · split at hs
      · cases hs
      · exact ⟨_, List.mem_singleton.1 hs⟩

/-- The first check that fails is the one of the plan, or the one of the boot settings after all changes of
ports. -/
theorem failure_cases {before : History} {rest : Steps}
    (heq : stepsFor i id script d = made before ++ .error f :: rest) :
    before = [] ∧ (∃ n, i.spec.wantedNetworking? = some n ∧ Plan.make d n = .error f) ∨
      finalUserdata i d = .error f ∧ made before = portSteps i d := by
  rw [stepsFor, List.append_assoc] at heq
  rcases portSteps_cases i d with ⟨n, g, hn, hplan, hports⟩ | hports
  · rw [hports] at heq
    cases before with
    | nil =>
      obtain ⟨hgf, -⟩ := List.cons.inj heq
      cases hgf
      exact .inl ⟨rfl, n, hn, hplan⟩
    | cons e before =>
      obtain ⟨hge, -⟩ := List.cons.inj heq
      cases hge
  · have hrequests : ∀ s ∈ portSteps i d, ∃ r, s = .ok r := fun s hs => by
      obtain ⟨port, change, heq⟩ := hports s hs
      exact ⟨_, heq⟩
    obtain ⟨between, hbefore, hrest⟩ := exists_of_append_eq hrequests heq
    rcases bootSteps_cases i id script d with ⟨g, hdata, hboot⟩ | hboot
    · rw [hboot] at hrest
      cases between with
      | nil =>
        obtain ⟨hgf, -⟩ := List.cons.inj hrest
        cases hgf
        exact .inr ⟨hdata, hbefore.trans (List.append_nil _)⟩
      | cons s between =>
        obtain ⟨hgs, -⟩ := List.cons.inj hrest
        have hmade : .error g ∈ made before := by
          rw [hbefore, ← hgs]
          simp
        exact absurd hmade error_not_mem_made
    · obtain ⟨r, hr⟩ := hboot (.error f) (hrest ▸ by simp)
      cases hr

theorem exists_of_mapM_eq_error {ε : Type} {g : α → Except ε β} {as : List α} {e : ε} (h : as.mapM g = .error e) :
    ∃ a ∈ as, g a = .error e := by
  induction as with
  | nil => cases h
  | cons a as ih =>
    rw [List.mapM_cons] at h
    cases ha : g a with
    | error e' =>
      rw [ha] at h
      cases h
      exact ⟨a, List.mem_cons_self, ha⟩
    | ok b =>
      rw [ha] at h
      cases has : as.mapM g with
      | error e' =>
        rw [has] at h
        cases h
        obtain ⟨a', ha', hg⟩ := ih has
        exact ⟨a', List.mem_cons_of_mem _ ha', hg⟩
      | ok bs =>
        rw [has] at h
        cases h

/-- The boot settings fail for want of a management port, or because of the boot document. -/
theorem finalUserdata_failure (h : finalUserdata i d = .error f) :
    (∃ port, f = .missingPort d.id port) ∨ ∃ message, f = .bootDocument message := by
  unfold finalUserdata at h
  cases hmacs : managementMacs i d with
  | error g =>
    rw [hmacs] at h
    cases h
    obtain ⟨name, -, hname⟩ := exists_of_mapM_eq_error hmacs
    split at hname
    · cases hname
    · cases hname
      exact .inl ⟨name, rfl⟩
  | ok macs =>
    simp only [hmacs, bind, Except.bind] at h
    cases hboot : Boot.Document.parse (i.spec.userdata.getD "") with
    | error g =>
      rw [hboot] at h
      exact .inr ⟨g.message, (Except.error.inj h).symm⟩
    | ok boot =>
      rw [hboot] at h
      cases h

/-- A run that ends in a failure of the configuration which no request was answered with has neither changed
the boot settings nor reinstalled the device. It has changed no port if the plan fails, as it does for an
unknown topology; if the management ports or the boot document fail, it has carried out the whole plan. -/
theorem configuration_failures (hruns : (reconfigure i script).run.Runs h (.error f))
    (hf : f.isConfiguration = true) (hraised : ∀ e ∈ h, e.2 ≠ .error f) :
    (∀ e ∈ h, ∀ id, e.1 ≠ .reinstall id ∧ ∀ c, e.1 ≠ .update id c) ∧
    ∃ id d h', h = ⟨.get id, .ok (some d)⟩ :: h' ∧
      (h' = [] ∧ (∃ n, i.spec.wantedNetworking? = some n ∧ Plan.make d n = .error f) ∨
        finalUserdata i d = .error f ∧ made h' = portSteps i d ∧ ∀ e ∈ h', Succeeded e) ∧
      ∀ name, f = .unknownNetworkType name → h' = [] := by
  have hcourse := runs_reconfigure_iff.1 hruns
  unfold Course at hcourse
  cases hid : i.deviceId? with
  | none =>
    rw [hid] at hcourse
    cases hcourse.2
    cases hf
  | some id =>
    rw [hid] at hcourse
    rcases hcourse with ⟨g, rfl, hg⟩ | ⟨-, hg⟩ | ⟨d, h', rfl, before, rest, hall, hend⟩
    · cases hg
      exact absurd rfl (hraised _ List.mem_cons_self)
    · cases hg
      cases hf
    rcases hend with ⟨rfl, heq⟩ | ⟨r, rfl, -⟩
    · have hcases := failure_cases heq
      refine ⟨List.forall_mem_cons.2 ⟨fun _ => ⟨nofun, nofun⟩, fun e he => ?_⟩, id, d, h', rfl,
        hcases.imp_right fun ⟨hdata, hmade⟩ => ⟨hdata, hmade, hall⟩, ?_⟩
      · rcases hcases with ⟨rfl, -⟩ | ⟨-, hmade⟩
        · cases he
        · obtain ⟨port, change, heq⟩ := changePort_of_mem (hmade ▸ ok_mem_made he)
          rw [heq]
          exact fun _ => ⟨nofun, nofun⟩
      · rintro name rfl
        rcases hcases with ⟨hnil, -⟩ | ⟨hdata, -⟩
        · exact hnil
        · rcases finalUserdata_failure hdata with ⟨port, hport⟩ | ⟨message, hmessage⟩
          · cases hport
          · cases hmessage
    · exact absurd rfl (hraised ⟨r, .error f⟩ (by simp))

/-! ## Ports that are changed in vain -/

/-- An Instance that wants every port switched on its own, and to be managed through a port that does not
exist. -/
def unmanageable : Instance where
  metadata := { name := some "edge-a" }
  spec := { managementInterfaces := ["eth7"], networking := some ⟨"layer2-individual", []⟩ }
  status := some { phase := .submitted, instanceId := some "d1" }

/-- A device with a bond of one port. -/
def bonded : Device where
  id := "d1"
  state := "active"
  ports := [⟨"b0", "bond0", "NetworkBondPort", none, ⟨none, true⟩, []⟩,
    ⟨"e0", "eth0", "NetworkPort", none, ⟨some "aa:00:00:00:00:e0", true⟩, []⟩]

/-- The device is read, and its ports are converted. -/
def converting : History :=
  [⟨.get "d1", .ok (some bonded)⟩, ⟨.changePort "b0" .toLayer2, .ok default⟩, ⟨.changePort "e0" .disbond, .ok default⟩]

theorem succeeded_converting : ∀ e ∈ converting, Succeeded e :=
  List.forall_mem_cons.2 ⟨⟨_, rfl⟩, List.forall_mem_cons.2 ⟨⟨_, rfl⟩, List.forall_mem_cons.2
    ⟨⟨_, rfl⟩, List.forall_mem_nil _⟩⟩⟩

theorem runs_unmanageable :
    (reconfigure unmanageable "https://boot/master.ipxe").run.Runs converting (.error (.missingPort "d1" "eth7")) := by
  have hports : portSteps unmanageable bonded = made converting.tail := rfl
  have hdata : finalUserdata unmanageable bonded = .error (.missingPort "d1" "eth7") := rfl
  have hsteps : stepsFor unmanageable "d1" "https://boot/master.ipxe" bonded = made converting.tail ++
      .error (.missingPort "d1" "eth7") :: reinstallSteps "d1" bonded := by
    rw [stepsFor, bootSteps, hdata, hports]
    rfl
  refine runs_reconfigure_iff.2 (.inr (.inr ⟨bonded, converting.tail, rfl, converting.tail, _, ?_, .inl ⟨rfl, hsteps⟩⟩))
  exact fun e he => succeeded_converting e (List.mem_cons_of_mem _ he)

/-- The management port is missing, and the ports are changed already. -/
theorem ports_changed_before_failure :
    (reconfigure unmanageable "https://boot/master.ipxe").run.Runs converting (.error (.missingPort "d1" "eth7")) ∧
      (DeviceFailure.missingPort "d1" "eth7").isConfiguration = true ∧ (∀ e ∈ converting, Succeeded e) ∧
      ∃ e ∈ converting, e.1 = .changePort "b0" .toLayer2 :=
  ⟨runs_unmanageable, rfl, succeeded_converting, _, List.mem_cons_of_mem _ List.mem_cons_self, rfl⟩

theorem configuration_failures_unmanageable :
    (reconfigure unmanageable "https://boot/master.ipxe").run.Runs converting (.error (.missingPort "d1" "eth7")) ∧
      (∀ e ∈ converting, Succeeded e) ∧ ∀ e ∈ converting, ∀ id, e.1 ≠ .reinstall id ∧ ∀ c, e.1 ≠ .update id c := by
  refine ⟨runs_unmanageable, succeeded_converting, (configuration_failures runs_unmanageable rfl ?_).1⟩
  intro e he hfailed
  obtain ⟨a, ha⟩ := succeeded_converting e he
  cases ha.symm.trans hfailed

end Provisioning

end BareMetal
