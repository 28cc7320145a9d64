import BareMetal.Backoff
import BareMetal.Credentials
import BareMetal.Device.Basic
import BareMetal.Event
import BareMetal.Instance.Health
import BareMetal.Program
import BareMetal.Settings

/-!
# Passes over an Instance

One pass looks at an Instance and takes it one step further: it makes at most one remote change,
records the outcome in the status, and says when to look again. A machine goes through the phases
in their order; a pass that starts over after a crash goes on from the recorded phase. An Instance
that is being deleted keeps its finalizer until its device and its Node are gone.
-/

namespace BareMetal

/-! ## Calls -/

/-- What the cluster is asked about an Instance. -/
inductive InstanceCall
  | writeStatus (name : String) (status : InstanceStatus)
  | addFinalizer (name : String)
  | removeFinalizer (name : String)
  | deleteInstance (name : String)
  | getNode (name : String)
  | deleteNode (name : String)

/-- What a call is answered with if it succeeds. -/
abbrev InstanceCall.Result : InstanceCall → Type
  | getNode _ => Option Cluster.Node
  | _ => Unit

/-- What is asked about the device of an Instance. -/
inductive DeviceCall
  | find (c : Credentials) (hostname : String)
  | create (c : Credentials) (i : Instance)
  | status (c : Credentials) (device : String)
  | reconfigure (c : Credentials) (i : Instance)
  | delete (c : Credentials) (device : String)

/-- What a call is answered with if it succeeds. -/
abbrev DeviceCall.Result : DeviceCall → Type
  | find .. | status .. => Option DeviceStatus
  | create .. => DeviceStatus
  | reconfigure .. | delete .. => Unit

/-- A step of a pass. -/
inductive InstanceStep
  | cluster (c : InstanceCall)
  | device (c : DeviceCall)
  | announce (e : Event)
  /-- Looks at the clock. -/
  | clock

/-- What a step is answered with. -/
abbrev InstanceStep.Answer : InstanceStep → Type
  | cluster c => Except Failure c.Result
  | device c => Except Failure c.Result
  | announce _ => Unit
  | clock => Stamp

/-- What is remembered from pass to pass. -/
structure InstanceMemory where
  backoff : Backoff := ∅
  /-- When each Node was first seen not to be ready without saying since when. -/
  unready : Dict Stamp := ∅
deriving Inhabited

/-- The steps of a pass with what is remembered. -/
abbrev InstanceSteps := StateT InstanceMemory (Program InstanceStep InstanceStep.Answer)

/-- A pass, which ends at the first failure. -/
abbrev InstancePass := ExceptT Failure InstanceSteps

namespace InstancePass

/-- Takes a step. -/
def step (s : InstanceStep) : InstanceSteps s.Answer := StateT.lift (Program.perform s)

/-- Asks the cluster. -/
def cluster (c : InstanceCall) : InstancePass c.Result := ExceptT.mk (step (.cluster c))

/-- Asks about the device. -/
def device (c : DeviceCall) : InstancePass c.Result := ExceptT.mk (step (.device c))

/-- Publishes an event. -/
def announce (e : Event) : InstancePass Unit := ExceptT.lift (step (.announce e))

/-- The time. -/
def clock : InstancePass Stamp := ExceptT.lift (step .clock)

/-- What is remembered. -/
def memory : InstancePass InstanceMemory := ExceptT.lift get

/-- Changes what is remembered. -/
def remember (f : InstanceMemory → InstanceMemory) : InstancePass Unit := ExceptT.lift (modify f)

/-- A check that asks nobody. -/
def check {α : Type} (r : Except Failure α) : InstancePass α := ExceptT.mk (pure r)

end InstancePass

open InstancePass

/-! ## Steps of a life -/

namespace Instance

/-- How long to wait after the finalizer was added. -/
def finalizerWait : Span := .second

/-- Refuses a spec that cannot be carried through to the end. -/
def checkSpec (i : Instance) : Except Failure Unit := do
  match i.spec.wantedNetworking? with
  | none => pure ()
  | some n =>
    match n.parsedTopology with
    | .ok _ => pure ()
    | .error f => throw (.validation i.name f.message (some "spec.networkingConfiguration.type"))
  let _ ← i.spec.cleanupWait

/-- Records a status. -/
def record (i : Instance) (s : InstanceStatus) : InstancePass Unit :=
  cluster (.writeStatus i.name s)

/-- Takes up the device that has the name of the Instance, or asks for a new one. A device may be
there already because an earlier pass did not get to record it. -/
def obtainDevice (i : Instance) (c : Credentials) : InstancePass (DeviceStatus × Reason) := do
  match ← device (.find c i.name) with
  | some d => return (d, .deviceAdopted)
  | none => return (← device (.create c i), .deviceCreated)

/-- Nothing is requested yet: makes sure of the finalizer, then obtains a device. -/
def submit (s : Settings) (i : Instance) : InstancePass Followup := do
  if !i.metadata.hasFinalizer Names.deprovision then
    cluster (.addFinalizer i.name)
    return .after finalizerWait
  else
    check i.checkSpec
    let c ← check (Credentials.ofInstance i)
    let (d, reason) ← i.obtainDevice c
    i.record { i.statusOrNew with
      phase := .submitted, instanceId := some d.id, deviceState := some d.state.name }
    announce { reason := reason, activity := .provision, note := s!"device {d.id}" }
    return .after s.pollInterval

/-- The status of the recorded device, none if the service does not know it. -/
def pollDevice (i : Instance) (c : Credentials) : InstancePass (Option DeviceStatus) :=
  match i.deviceId? with
  | none => throw (.internal i.name s!"phase {i.phase.name} without a device id")
  | some id => device (.status c id)

/-- Records what a device does that is not done yet, and tells if it failed. -/
def observePending (i : Instance) (d : DeviceStatus) : InstancePass Unit := do
  if d.state = .failed then
    announce { warning := true, reason := .deviceFailed, activity := .provision,
               note := s!"device {d.id} reported state failed" }
  if i.statusOrNew.deviceState = some d.state.name then return
  else i.record { i.statusOrNew with deviceState := some d.state.name }

/-- A device is being provisioned: when it is done, gives it its final configuration. -/
def awaitProvisioned (s : Settings) (i : Instance) : InstancePass Followup := do
  let c ← check (Credentials.ofInstance i)
  match ← i.pollDevice c with
  | none => return .after s.pollInterval
  | some d =>
    if d.state.isSettled then
      device (.reconfigure c i)
      i.record { i.statusOrNew with phase := .reinstalling, deviceState := some d.state.name }
      announce { reason := .deviceReinstalling, activity := .reconfigure,
                 note := s!"device {d.id} reinstalling with final configuration" }
    else i.observePending d
    return .after s.pollInterval

/-- The device is being reinstalled: when it is back, records its addresses. -/
def awaitReinstalled (s : Settings) (i : Instance) : InstancePass Followup := do
  let c ← check (Credentials.ofInstance i)
  match ← i.pollDevice c with
  | none => return .after s.pollInterval
  | some d =>
    if d.state = .active then
      i.record { i.statusOrNew with
        phase := .ready, deviceState := some d.state.name, publicIp := d.publicIpv4
        privateIp := d.privateIpv4 }
      announce { reason := .instanceReady, activity := .reconcile, note := s!"device {d.id} active" }
      return .after s.readyCheckInterval
    else
      i.observePending d
      return .after s.pollInterval

/-- Deletes an Instance whose machine is no member any more. -/
def replace (i : Instance) (reason : Reason) (note : String) : InstancePass Followup := do
  announce { warning := true, reason := reason, activity := .delete, note := note }
  cluster (.deleteInstance i.name)
  return .onChange

/-- The note on a Node that left. -/
def lostNote (i : Instance) : String := s!"node {i.name} left the cluster"

/-- The machine runs: waits for it to join the cluster. A Node that is going already has joined
and left unseen. -/
def awaitMember (s : Settings) (i : Instance) : InstancePass Followup := do
  match ← cluster (.getNode i.name) with
  | none => return .after s.readyCheckInterval
  | some n =>
    if n.metadata.isDeleting then i.replace .nodeLost i.lostNote
    else
      i.record { i.statusOrNew with phase := .managed }
      announce { reason := .instanceManaged, activity := .reconcile,
                 note := s!"node {i.name} joined the cluster" }
      return .onChange

/-- The machine is a member: replaces the Instance if its Node is gone or was unhealthy for too
long. -/
def watchMember (i : Instance) : InstancePass Followup := do
  let wait ← check i.spec.cleanupWait
  let node ← cluster (.getNode i.name)
  let now ← clock
  let seen := (← memory).unready.get? i.name
  match assessMember node wait seen now with
  | .recheck left =>
    remember fun m =>
      { m with unready := if seen.isSome then m.unready else m.unready.insert i.name now }
    return .after left
  | .healthy =>
    forget
    return .onChange
  | .lost =>
    forget
    i.replace .nodeLost i.lostNote
  | .unhealthy =>
    forget
    let wait := i.spec.nodeCleanupWait.getD ""
    i.replace .instanceRemediated s!"node {i.name} not ready for longer than {wait}"
where
  /-- Drops the first sighting. -/
  forget : InstancePass Unit :=
    remember fun m => { m with unready := m.unready.erase i.name }

/-- The Instance is being deleted: gives back the device and the Node, then the finalizer. -/
def remove (i : Instance) : InstancePass Followup := do
  remember fun m => { m with unready := m.unready.erase i.name }
  if !i.metadata.hasFinalizer Names.deprovision then return .onChange
  else
    match i.deviceId? with
    | none => pure ()
    | some id =>
      let c ← check (Credentials.ofInstance i)
      device (.delete c id)
      announce { reason := .deviceDeleted, activity := .delete, note := s!"device {id} deprovisioned" }
    cluster (.deleteNode i.name)
    cluster (.removeFinalizer i.name)
    return .onChange

/-! ## Passes -/

/-- What a pass does, without the treatment of failures. -/
def advance (s : Settings) (i : Instance) : InstancePass Followup :=
  if i.isDeleting then i.remove
  else
    match i.phase with
    | .empty => i.submit s
    | .submitted => i.awaitProvisioned s
    | .reinstalling => i.awaitReinstalled s
    | .ready => i.awaitMember s
    | .managed => i.watchMember

/-- The event that tells of a failure; a failure that may pass by itself is not told. -/
def failureEvent? (f : Failure) : Option Event :=
  if f.retryable then none
  else
    let reason := match f with
      | .validation .. => Reason.validationFailed
      | _ => .deviceFailed
    some { warning := true, reason := reason, activity := .reconcile, note := f.message }

/-- One pass. Success ends the streak of failures. -/
def reconcile (s : Settings) (i : Instance) : InstancePass Followup := do
  match ← ExceptT.lift (i.advance s).run with
  | .ok next =>
    remember fun m => { m with backoff := m.backoff.reset i.name }
    return next
  | .error f =>
    match failureEvent? f with
    | none => pure ()
    | some e => announce e
    throw f

/-- When to look again after a failure, and what is remembered of it. -/
def afterFailure (i : Instance) (now : Nat) (m : InstanceMemory) : Followup × InstanceMemory :=
  let (wait, backoff) := m.backoff.record .standard now i.name
  (.after (wait.getD .zero), { m with backoff := backoff })

end Instance

end BareMetal
