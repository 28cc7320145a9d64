import BareMetal.Cluster.Metadata
import BareMetal.Names
import BareMetal.Networking

/-!
# Instance pools

A pool declares how many machines of one kind should exist. Its members are found by the pool
label; the status only counts them.
-/

namespace BareMetal

open Json

/-- What a pool is about to do. -/
inductive PoolPhase
  /-- No join token is known. -/
  | empty
  /-- Instances have to be created. -/
  | tokenReady
  /-- Instances were created and are on their way. -/
  | submitted
  /-- All wanted Instances are members of the cluster. -/
  | ready
  /-- Instances have to be removed. -/
  | cleanupNodes
deriving DecidableEq, Inhabited

namespace PoolPhase

/-- All phases. -/
def all : List PoolPhase := [.empty, .tokenReady, .submitted, .ready, .cleanupNodes]

/-- The name of a phase. -/
def name : PoolPhase → String
  | .empty => "empty"
  | .tokenReady => "tokenReady"
  | .submitted => "submitted"
  | .ready => "ready"
  | .cleanupNodes => "cleanupNodes"

/-- The phase with a name. -/
def ofName? (s : String) : Option PoolPhase := all.find? (·.name = s)

theorem ofName?_name (p : PoolPhase) : ofName? p.name = some p := by
  cases p <;> decide

/-- The form of a phase. -/
def form : Form PoolPhase := .choice name ofName?

end PoolPhase

/-- How many machines of which kind are wanted. -/
structure PoolSpec where
  count : Int32 := 0
  billingCycle : String := ""
  spotInstance : Bool := false
  spotPriceMax : Option Float := none
  customData : Option String := none
  userSshKeys : List String := []
  projectSshKeys : List String := []
  features : Dict String := ∅
  noSshKeys : Bool := false
  managementInterfaces : List String := []
  managementBonding : Dict String := ∅
  ipxeScriptUrl : Option String := none
  isoUrl : Option String := none
  plan : String := ""
  metro : Option String := none
  facility : List String := []
  nodeCleanupWait : Option String := none
  networking : Option Networking := none
deriving DecidableEq, Inhabited

namespace PoolSpec

/-- The form of a spec. -/
def form : Form PoolSpec := .record <|
  PoolSpec.mk
    <$> .required "count" (·.count) .int32
    <*> .withDefault "billingCycle" (·.billingCycle) "" .text
    <*> .withDefault "spotInstance" (·.spotInstance) false .flag
    <*> .optional "spotPriceMax" (·.spotPriceMax) .float
    <*> .optional "customData" (·.customData) .text
    <*> .items "usersshKeys" (·.userSshKeys) .text
    <*> .items "projectsshKeys" (·.projectSshKeys) .text
    <*> .entries "features" (·.features) .text
    <*> .withDefault "nosshKeys" (·.noSshKeys) false .flag
    <*> .items "managementInterfaces" (·.managementInterfaces) .text
    <*> .entries "managementBondingOptions" (·.managementBonding) .text
    <*> .optional "ipxeScriptUrl" (·.ipxeScriptUrl) .text
    <*> .optional "isoUrl" (·.isoUrl) .text
    <*> .required "plan" (·.plan) .text
    <*> .optional "metro" (·.metro) .text
    <*> .items "facility" (·.facility) .text
    <*> .optional "nodeCleanupWaitInterval" (·.nodeCleanupWait) .text
    <*> .optional "networkingConfiguration" (·.networking) Networking.form

/-- Refuses specs that cannot be acted on: a negative count, no plan, an unknown topology. -/
def validate (s : PoolSpec) : Except Failure Unit :=
  if s.count < 0 then
    .error (.validation Failure.unknown s!"count must not be negative, got {s.count.toInt}" (some "spec.count"))
  else if s.plan.isEmpty then
    .error (.validation Failure.unknown "plan is required" (some "spec.plan"))
  else
    match s.networking.filter (!·.isEmpty) with
    | none => .ok ()
    | some n => n.parsedTopology.map fun _ => ()

theorem validate_eq_ok_iff {s : PoolSpec} : s.validate = .ok () ↔ 0 ≤ s.count ∧ s.plan ≠ "" ∧
    ∀ n, s.networking.filter (!·.isEmpty) = some n → ∃ t, n.parsedTopology = .ok t := by
  unfold validate
  split
  · next hcount => exact iff_of_false nofun fun h => Int32.not_lt.2 h.1 hcount
  · next hcount =>
    rw [and_iff_right (Int32.not_lt.1 hcount)]
    split
    · next hplan => exact iff_of_false nofun fun h => h.1 (String.isEmpty_iff.1 hplan)
    · next hplan =>
      rw [and_iff_right (mt String.isEmpty_iff.2 hplan)]
      cases s.networking.filter (!·.isEmpty) with
      | none => exact iff_of_true rfl nofun
      | some n => cases h : n.parsedTopology <;> simp [Except.map, h]

end PoolSpec

/-- What a pool is about to do, and its counts. -/
structure PoolStatus where
  phase : PoolPhase := .empty
  /-- Members of the cluster. -/
  ready : Int32 := 0
  /-- Instances that the pool accounts for. -/
  requested : Int32 := 0
  /-- Instances to create, or to remove if negative. -/
  needed : Int32 := 0
  /-- The join token. -/
  token : Option String := none
deriving DecidableEq, Inhabited

/-- The form of a status. -/
def PoolStatus.form : Form PoolStatus := .record <|
  PoolStatus.mk
    <$> .withDefault "phase" (·.phase) .empty PoolPhase.form
    <*> .withDefault "ready" (·.ready) 0 .int32
    <*> .withDefault "requested" (·.requested) 0 .int32
    <*> .withDefault "needed" (·.needed) 0 .int32
    <*> .optional "token" (·.token) .text

/-- A fleet of machines of one kind. -/
structure Pool where
  metadata : Cluster.Metadata := {}
  spec : PoolSpec := {}
  status : Option PoolStatus := none
deriving Inhabited

namespace Pool

/-- The form of a pool. -/
def form : Form Pool := .record <|
  (fun _ _ => Pool.mk)
    <$> .constant "apiVersion" Names.apiVersion
    <*> .constant "kind" "InstancePool"
    <*> .required "metadata" (·.metadata) Cluster.Metadata.form
    <*> .required "spec" (·.spec) PoolSpec.form
    <*> .optionalMember "status" (·.status) PoolStatus.form

/-- The name. -/
def name (p : Pool) : String := p.metadata.nameOrStem

/-- The phase; a pool without status is empty. -/
def phase (p : Pool) : PoolPhase := (p.status.map (·.phase)).getD .empty

/-- The status, or the one from which everything starts. -/
def statusOrNew (p : Pool) : PoolStatus := p.status.getD {}

/-- The merge patch that replaces the status. -/
def statusPatch (s : PoolStatus) : Json := .obj [("status", PoolStatus.form.encode s)]

end Pool

end BareMetal
