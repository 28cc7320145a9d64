import BareMetal.Boot.Document
import BareMetal.Credentials
import BareMetal.Pool.Basic
import BareMetal.Settings

/-!
# Making Instances of a pool

A new Instance takes its spec from its pool and gets a name of its own, a password, and a boot
document with which its machine joins the cluster. Name and password are drawn at random.
-/

namespace BareMetal

/-! ## Random texts -/

namespace Letters

/-- A small letter by its number. -/
def lowercase (n : Fin 26) : Char := .ofNat (97 + n)

/-- A letter by its number: the small ones, then the capitals. -/
def either (n : Fin 52) : Char := if n < 26 then .ofNat (97 + n) else .ofNat (65 + (n - 26))

end Letters

/-- The random choices for one Instance. -/
structure Draw where
  /-- The letters after the name of the pool. -/
  suffix : Vector (Fin 26) 8
  password : Vector (Fin 52) 16

instance : Inhabited Draw := ⟨⟨.replicate 8 0, .replicate 16 0⟩⟩

namespace Draw

/-- The name of an Instance of the named pool. -/
def name (d : Draw) (pool : String) : String := s!"{pool}-{String.ofList (d.suffix.toList.map Letters.lowercase)}"

/-- The password of an Instance. -/
def passwordText (d : Draw) : String := .ofList (d.password.toList.map Letters.either)

end Draw

/-! ## Instances -/

/-- What a machine needs to be made and to join. -/
structure JoinMaterial where
  credentials : Credentials
  /-- The token with which a machine joins. -/
  token : String
  /-- Where the cluster is reached. -/
  address : String
deriving DecidableEq

namespace Pool

/-- The operating system of machines that boot from a script of their own. -/
def customSystem : String := "custom_ipxe"

/-- The reference by which a pool owns its Instances, if the pool can be told from others. -/
def ownerReference? (p : Pool) : Option Cluster.OwnerReference := do
  let name ← p.metadata.name
  let uid ← p.metadata.uid
  return { apiVersion := Names.apiVersion, kind := "InstancePool", name := name, uid := uid
           controller := some true }

/-- The boot document of an Instance. -/
def bootDocument (p : Pool) (m : JoinMaterial) (s : Settings) (d : Draw) : Boot.Document :=
  .join m.address m.token (d.name p.name) d.passwordText (p.spec.isoUrl.getD s.isoUrl)

/-- The spec of an Instance. -/
def instanceSpec (p : Pool) (m : JoinMaterial) (s : Settings) (d : Draw) : InstanceSpec where
  plan := p.spec.plan
  facility := p.spec.facility
  metro := p.spec.metro
  operatingSystem := customSystem
  billingCycle := p.spec.billingCycle
  projectId := some m.credentials.projectId
  userdata := some (p.bootDocument m s d).render
  ipxeScriptUrl := some s.initialIpxeScriptUrl
  spotInstance := p.spec.spotInstance
  spotPriceMax := p.spec.spotPriceMax
  customData := p.spec.customData
  userSshKeys := p.spec.userSshKeys
  projectSshKeys := p.spec.projectSshKeys
  features := p.spec.features
  noSshKeys := p.spec.noSshKeys
  nodeCleanupWait := p.spec.nodeCleanupWait
  managementInterfaces :=
    if p.spec.managementInterfaces.isEmpty then [s.defaultInterface] else p.spec.managementInterfaces
  managementBonding := p.spec.managementBonding
  networking := p.spec.networking

/-- A new Instance of the pool. -/
def synthesize (p : Pool) (m : JoinMaterial) (s : Settings) (d : Draw) : Except Failure Instance :=
  match p.ownerReference? with
  | none => .error (.internal p.name "pool has no uid to own Instances")
  | some owner => .ok {
      metadata := {
        name := some (d.name p.name)
        ownerReferences := some [owner]
        labels := some (.ofList [(Names.poolLabel, p.name)])
        annotations := some (.ofList [(Names.tokenKey, m.credentials.token),
          (Names.passwordKey, d.passwordText),
          (Names.reinstallScriptKey, (p.spec.ipxeScriptUrl.filter (· ≠ "")).getD s.ipxeScriptUrl)]) }
      spec := p.instanceSpec m s d }

section

variable {p : Pool} {m : JoinMaterial} {s : Settings} {d : Draw} {i : Instance}

/-- A pool that can be told from others can make Instances. -/
theorem exists_synthesize (hname : p.metadata.name.isSome = true) (huid : p.metadata.uid.isSome = true)
    (m : JoinMaterial) (s : Settings) (d : Draw) : ∃ i, p.synthesize m s d = .ok i := by
  obtain ⟨n, hn⟩ := Option.isSome_iff_exists.1 hname
  obtain ⟨u, hu⟩ := Option.isSome_iff_exists.1 huid
  unfold synthesize ownerReference?
  rw [hn, hu]
  exact ⟨_, rfl⟩

/-- The Instance carries what the pool gives to a new one. -/
structure Makes (p : Pool) (m : JoinMaterial) (s : Settings) (d : Draw) (i : Instance) : Prop where
  name : i.metadata.name = some (d.name p.name)
  label : i.labelledPool? = some p.name
  token : i.apiToken? = (some m.credentials.token).filter (· ≠ "")
  spec : i.spec = p.instanceSpec m s d
  phase : i.phase = .empty
  stays : i.isDeleting = false

theorem makes_of_synthesize (h : p.synthesize m s d = .ok i) : p.Makes m s d i := by
  unfold synthesize at h
  split at h
  · cases h
  · cases h
    refine ⟨rfl, rfl, ?_, rfl, rfl, rfl⟩
    simp [Instance.apiToken?, Cluster.Metadata.annotation?, Dict.ofList, Names.tokenKey,
      Names.passwordKey, Names.reinstallScriptKey]

end

end Pool

end BareMetal
