import BareMetal.Backoff
import BareMetal.Cluster.Node
import BareMetal.Cluster.Secret
import BareMetal.Cluster.Service
import BareMetal.Event
import BareMetal.Pool.Sizing
import BareMetal.Pool.Synthesis
import BareMetal.Program

/-!
# Passes over a pool

One pass looks at a pool and takes it one step towards the wanted number of members. A pool grows
by creating Instances under its lock, and shrinks by deleting the newest ones; in between it is
observed, and the gap decides what comes next.
-/

namespace BareMetal

/-! ## Calls -/

/-- What the cluster is asked about a pool. -/
inductive PoolCall
  | writeStatus (name : String) (status : PoolStatus)
  | getSecret (space name : String)
  | listControlPlane
  | getService (space name : String)
  | listInstances (pool : String)
  | createInstance (i : Instance)
  | deleteInstance (name : String)

/-- What a call is answered with if it succeeds. -/
abbrev PoolCall.Result : PoolCall → Type
  | getSecret .. => Option Cluster.Secret
  | listControlPlane => List Cluster.Node
  | getService .. => Option Cluster.Service
  | listInstances _ => List Instance
  | _ => Unit

/-- A step of a pass. -/
inductive PoolStep
  | cluster (c : PoolCall)
  | announce (e : Event)
  /-- Takes the lock of a pool, and waits for it. -/
  | lock (pool : String)
  | unlock (pool : String)
  /-- Chooses a name and a password. -/
  | draw
  /-- Reads the bootstrap document. -/
  | readBootstrap (path : String)

/-- What a step is answered with. -/
abbrev PoolStep.Answer : PoolStep → Type
  | cluster c => Except Failure c.Result
  | announce _ | lock _ | unlock _ => Unit
  | draw => Draw
  | readBootstrap _ => Except String String

/-- The steps of a pass with the streaks of failures. -/
abbrev PoolSteps := StateT Backoff (Program PoolStep PoolStep.Answer)

/-- A pass, which ends at the first failure. -/
abbrev PoolPass := ExceptT Failure PoolSteps

namespace PoolPass

/-- Takes a step. -/
def step (s : PoolStep) : PoolSteps s.Answer := StateT.lift (Program.perform s)

/-- Asks the cluster. -/
def cluster (c : PoolCall) : PoolPass c.Result := ExceptT.mk (step (.cluster c))

/-- Publishes an event. -/
def announce (e : Event) : PoolPass Unit := ExceptT.lift (step (.announce e))

/-- A check that asks nobody. -/
def check {α : Type} (r : Except Failure α) : PoolPass α := ExceptT.mk (pure r)

/-- Does something while holding the lock of a pool, which is released however that ends. -/
def locked {α : Type} (pool : String) (body : PoolPass α) : PoolPass α := do
  ExceptT.lift (step (.lock pool))
  let r ← ExceptT.lift body.run
  ExceptT.lift (step (.unlock pool))
  check r

end PoolPass

open PoolPass

/-! ## Join material -/

namespace Settings

/-- The token with which machines join: the one set, or the one in the bootstrap document. -/
def resolveToken (s : Settings) : PoolPass String :=
  match s.joinToken.filter (· ≠ "") with
  | some token => return token
  | none => do
    match ← ExceptT.lift (step (.readBootstrap s.bootstrapPath)) with
    | .error detail =>
      throw (.configuration s.bootstrapPath s!"unable to read bootstrap document: {detail}")
    | .ok text => check ((Boot.tokenOf text).mapError (.configuration s.bootstrapPath))

/-- The credentials for the provisioning service. -/
def resolveCredentials (s : Settings) : PoolPass Credentials := do
  match ← cluster (.getSecret s.secretSpace s.credentialSecret) with
  | none => throw (.configuration "credentials" s!"secret {s.secretSpace}/{s.credentialSecret} not found")
  | some secret => check (Credentials.ofSecret s.credentialSecret secret.data)

/-- Where machines join. -/
def resolveAddress (s : Settings) : PoolPass String := do
  let context := s!"{s.ingressSpace}/{s.ingressService}"
  match ← cluster (.getService s.ingressSpace s.ingressService) with
  | none => throw (.provisioning context "ingress service not found" true)
  | some service =>
    match service.address? with
    | none => throw (.provisioning context "ingress service has no external address yet" true)
    | some address => return address

end Settings

/-! ## Steps -/

namespace Pool

/-- How long to wait between the steps of growing or shrinking. -/
def stepWait : Span := .second

/-- Records a status. -/
def record (p : Pool) (s : PoolStatus) : PoolPass Unit := cluster (.writeStatus p.name s)

/-- Nothing is known yet: checks the spec, finds the join token and asks for all Instances. -/
def prepare (s : Settings) (p : Pool) : PoolPass Followup := do
  match p.spec.validate with
  | .error f => throw (.validation p.name f.message none)
  | .ok _ => pure ()
  let token ← s.resolveToken
  p.record { phase := .tokenReady, ready := 0, requested := p.spec.count, needed := p.spec.count
             token := some token }
  return .after stepWait

/-- Creates a number of Instances. -/
def createInstances (s : Settings) (p : Pool) (m : JoinMaterial) : Nat → PoolPass Unit
  | 0 => return
  | n + 1 => do
    let d ← ExceptT.lift (step .draw)
    let i ← check (p.synthesize m s d)
    cluster (.createInstance i)
    createInstances s p m n

/-- Creates the missing Instances; the caller has the lock. -/
def submitLocked (s : Settings) (p : Pool) : PoolPass Followup := do
  let credentials ← s.resolveCredentials
  if (← cluster .listControlPlane).isEmpty then
    announce { warning := true, reason := .noControlPlane, activity := .scale
               note := "no control-plane nodes found" }
  let address ← s.resolveAddress
  let token ← match p.status.bind (·.token) with
    | some token => pure token
    | none => s.resolveToken
  let fleet := Fleet.ofInstances (← cluster (.listInstances p.name))
  let missing := Fleet.creatable p.spec.count p.statusOrNew.needed fleet.present
  createInstances s p ⟨credentials, token, address⟩ missing.toNatClampNeg
  p.record { p.statusOrNew with
    phase := .submitted, requested := p.spec.count, needed := 0, token := some token }
  if missing > 0 then
    announce { reason := .poolScaledUp, activity := .scale, note := s!"created {missing.toInt} instances" }
  return .after s.pollInterval

/-- Instances are needed: creates them while nobody else creates any for the pool. -/
def submit (s : Settings) (p : Pool) : PoolPass Followup := locked p.name (p.submitLocked s)

/-- Instances are there or on their way: compares them with what is wanted. -/
def observe (s : Settings) (p : Pool) : PoolPass Followup := do
  let fleet := Fleet.ofInstances (← cluster (.listInstances p.name))
  let next := p.statusOrNew.settle p.spec.count fleet
  unless next = p.statusOrNew do p.record next
  match next.phase with
  | .ready =>
    unless p.phase = .ready do
      announce { reason := .poolReady, activity := .reconcile
                 note := s!"{next.ready.toInt} instances managed" }
    return .onChange
  | .tokenReady | .cleanupNodes => return .after stepWait
  | .empty | .submitted => return .after s.pollInterval

/-- Deletes Instances. -/
def deleteInstances : List String → PoolPass Unit
  | [] => return
  | name :: rest => do
    cluster (.deleteInstance name)
    deleteInstances rest

/-- There are too many Instances: deletes the newest. -/
def shrink (p : Pool) : PoolPass Followup := do
  let victims := Fleet.removalCandidates (← cluster (.listInstances p.name)) (-p.statusOrNew.needed)
  deleteInstances victims
  p.record (p.statusOrNew.afterRemovals (.ofNat victims.length))
  unless victims.isEmpty do
    announce { reason := .poolScaledDown, activity := .scale
               note := s!"removed {victims.length} instances" }
  return .after stepWait

/-! ## Passes -/

/-- What a pass does, without the treatment of failures. -/
def advance (s : Settings) (p : Pool) : PoolPass Followup :=
  match p.phase with
  | .empty => p.prepare s
  | .tokenReady => p.submit s
  | .submitted | .ready => p.observe s
  | .cleanupNodes => p.shrink

/-- The event that tells of a failure, if somebody has to change something. -/
def failureEvent? (f : Failure) : Option Event :=
  match f with
  | .validation .. | .configuration .. =>
    some { warning := true, reason := .validationFailed, activity := .reconcile, note := f.message }
  | _ => none

/-- One pass. A pool that is being deleted takes its Instances with it, and nothing is left to do.
Success ends the streak of failures. -/
def reconcile (s : Settings) (p : Pool) : PoolPass Followup := do
  if p.metadata.isDeleting then
    ExceptT.lift (modify fun b => b.reset p.name)
    return .onChange
  else
    match ← ExceptT.lift (p.advance s).run with
    | .ok next =>
      ExceptT.lift (modify fun b => b.reset p.name)
      return next
    | .error f =>
      match failureEvent? f with
      | none => pure ()
      | some e => announce e
      throw f

/-- When to look again after a failure, and what is remembered of it. -/
def afterFailure (p : Pool) (now : Nat) (b : Backoff) : Followup × Backoff :=
  let (wait, b) := b.record .standard now p.name
  (.after (wait.getD .zero), b)

end Pool

end BareMetal
