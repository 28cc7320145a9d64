import BareMetal.Proofs.Boot.RoundTrip
import BareMetal.Proofs.Device.Steps
import BareMetal.Proofs.Json.Merge
import BareMetal.Proofs.Pool.Offspring
import BareMetal.Proofs.Told

/-!
# What is written into an Instance agrees

The name, the password and the pool of a new Instance are written into its metadata, into the boot document
that its machine reads and into the request for its device. Whoever reads one of these finds what stands in
the others (`Pool.synthesize_agrees`), also in the document that the machine gets when its device is
reconfigured.
-/

namespace BareMetal

open Boot (Document)

/-! ## Names and passwords -/

namespace Draw

theorem isLower_lowercase (n : Fin 26) : (Letters.lowercase n).isLower = true := by
  revert n
  decide

theorem name_eq (d : Draw) (pool : String) : ∃ suffix : List Char, suffix.length = 8 ∧
    (∀ c ∈ suffix, c.isLower = true) ∧ d.name pool = pool ++ "-" ++ String.ofList suffix := by
  refine ⟨d.suffix.toList.map Letters.lowercase, by simp, ?_, rfl⟩
  intro c hc
  obtain ⟨n, -, rfl⟩ := List.mem_map.1 hc
  exact isLower_lowercase n

theorem passwordText_ne (d : Draw) : d.passwordText ≠ "" := by
  intro hempty
  have hlength : d.passwordText.length = 16 := by simp [passwordText]
  rw [hempty] at hlength
  cases hlength

end Draw

/-! ## Requests for devices -/

namespace DeviceRequest

open Json

/-- The request is for a device with the host name and the userdata. -/
def AsksFor (hostname userdata : String) : DeviceRequest → Prop
  | .create _ name spec => (creationBody name spec).get? "hostname" = some (.str hostname) ∧
      (creationBody name spec).get? "userdata" = some (.str userdata)
  | _ => False

theorem get?_creationBody_hostname (hostname : String) (s : InstanceSpec) :
    (creationBody hostname s).get? "hostname" = some (.str hostname) := by
  simp [creationBody, get?_append, get?_some?, get?_cons]

theorem get?_creationBody_userdata (hostname : String) (s : InstanceSpec) :
    (creationBody hostname s).get? "userdata" = s.userdata.map .str := by
  simp [creationBody, get?_append, get?_some?, get?_cons]

end DeviceRequest

/-- The device of an Instance is asked for once. -/
theorem Provisioning.told_create (c : Credentials) (i : Instance) (answer : (r : DeviceRequest) → r.Answer) :
    ((create c i).run.told answer).2 =
      [.create ((i.spec.projectId.filter (· ≠ "")).getD c.projectId) i.name i.spec] := by
  unfold create
  rw [run_request_bind, Program.told]
  cases answer (.create ((i.spec.projectId.filter (· ≠ "")).getD c.projectId) i.name i.spec) <;> rfl

/-! ## Documents -/

/-- What is written of the document reads back as the tree that it was written from. -/
def Boot.Document.ReadsBack (b : Document) : Prop := Yaml.ReadsBack (body b.render) (Writing.document b)

/-- The document tells a machine with the name and the password where and with which token to join. -/
structure Boot.Document.Joins (b : Document) (m : JoinMaterial) (name password : String) : Prop where
  serverUrl : b.serverUrl = "https://" ++ m.address ++ ":8443"
  token : b.token = m.token
  hostname : b.system.hostname = name
  password : b.system.password = password

namespace Pool

variable {p : Pool} {m : JoinMaterial} {s : Settings} {d : Draw} {i : Instance}

theorem joins_bootDocument : (p.bootDocument m s d).Joins m (d.name p.name) d.passwordText :=
  ⟨rfl, rfl, rfl, rfl⟩

theorem obtained_bootDocument : Boot.Obtained (p.bootDocument m s d) := .joined ..

/-- The pool, the name and the password in the metadata of the Instance are those in its boot document and in
the request for its device. -/
structure Agrees (p : Pool) (m : JoinMaterial) (i : Instance) (b : Document) : Prop where
  name : ∃ suffix : List Char, suffix.length = 8 ∧ (∀ c ∈ suffix, c.isLower = true) ∧
    i.name = p.name ++ "-" ++ String.ofList suffix
  owner : i.owningPool? = some p.name
  label : i.labelledPool? = some p.name
  password : i.password? = some b.system.password
  joins : b.Joins m i.name b.system.password
  unmanaged : b.installer.networks.get? Boot.managementNetwork = none
  userdata : ∃ text, i.spec.userdata = some text ∧ Document.parse text = .ok b ∧
    ∀ c answer, ∃ r, ((Provisioning.create c i).run.told answer).2 = [r] ∧ r.AsksFor b.system.hostname text

/-- The controlling owner is found by its kind. -/
theorem owningPool?_of_synthesize (h : p.synthesize m s d = .ok i) : i.owningPool? = some p.name := by
  unfold synthesize at h
  cases howner : p.ownerReference? with
  | none => rw [howner] at h; cases h
  | some owner =>
    rw [howner] at h
    cases h
    obtain ⟨name, hname, h⟩ := Option.bind_eq_some_iff.1 howner
    obtain ⟨uid, -, h⟩ := Option.bind_eq_some_iff.1 h
    cases h
    have hpool : p.name = name := by simp [Pool.name, Cluster.Metadata.nameOrStem, hname]
    rw [hpool]
    rfl

theorem password?_of_synthesize (h : p.synthesize m s d = .ok i) : i.password? = some d.passwordText := by
  unfold synthesize at h
  split at h
  · cases h
  · cases h
    simp [Instance.password?, Cluster.Metadata.annotation?, Dict.ofList, Names.tokenKey, Names.passwordKey,
      Names.reinstallScriptKey, d.passwordText_ne]

theorem name_of_synthesize (h : p.synthesize m s d = .ok i) : i.name = d.name p.name := by
  rw [Instance.name, Cluster.Metadata.nameOrStem, (makes_of_synthesize h).name]
  rfl

/-- The document is in the Instance and in the request for its device. -/
theorem agrees_of_synthesize (h : p.synthesize m s d = .ok i) (hback : (p.bootDocument m s d).ReadsBack) :
    p.Agrees m i (p.bootDocument m s d) where
  name := name_of_synthesize h ▸ d.name_eq p.name
  owner := owningPool?_of_synthesize h
  label := (makes_of_synthesize h).label
  password := password?_of_synthesize h
  joins := name_of_synthesize h ▸ joins_bootDocument
  unmanaged := Dict.get?_empty Boot.managementNetwork
  userdata := by
    have hspec : i.spec.userdata = some (p.bootDocument m s d).render := by
      rw [(makes_of_synthesize h).spec]
      rfl
    refine ⟨_, hspec, Boot.parse_render obtained_bootDocument.tidy hback, fun c answer => ?_⟩
    refine ⟨_, Provisioning.told_create c i answer, ?_, ?_⟩
    · rw [DeviceRequest.get?_creationBody_hostname, name_of_synthesize h]
      rfl
    · rw [DeviceRequest.get?_creationBody_userdata, hspec, Option.map_some]

end Pool

/-- The management network is set in the document that is read from the userdata. -/
theorem Provisioning.finalUserdata_of_parse {i : Instance} {device : Device} {macs : List String} {text : String}
    {b : Document} (hmacs : managementMacs i device = .ok macs) (htext : i.spec.userdata = some text)
    (hparse : Document.parse text = .ok b) :
    finalUserdata i device = .ok (b.withManagement macs i.spec.managementBonding).render := by
  unfold finalUserdata
  rw [hmacs, htext, Option.getD_some, hparse]
  rfl

namespace Pool

variable {p : Pool}

/-- A pool that can be told from others makes an Instance in which everything agrees, as long as documents
that are written read back. When the device of the Instance is reconfigured, the machine gets a document that
differs only in the management network. -/
theorem synthesize_agrees (hname : p.metadata.name.isSome = true) (huid : p.metadata.uid.isSome = true)
    (m : JoinMaterial) (s : Settings) (d : Draw) (hback : (p.bootDocument m s d).ReadsBack) :
    ∃ i, p.synthesize m s d = .ok i ∧ p.Agrees m i (p.bootDocument m s d) ∧
      ∀ (i' : Instance) (device : Device) (macs : List String), i'.spec = i.spec →
        Provisioning.managementMacs i' device = .ok macs →
        ((p.bootDocument m s d).withManagement macs i.spec.managementBonding).ReadsBack →
        ∃ text b, Provisioning.finalUserdata i' device = .ok text ∧ Document.parse text = .ok b ∧
          b.Joins m i.name d.passwordText ∧
          Boot.Manages (p.bootDocument m s d) b ⟨macs, "dhcp", true, i.spec.managementBonding⟩ := by
  obtain ⟨i, hi⟩ := exists_synthesize hname huid m s d
  have hagrees := agrees_of_synthesize hi hback
  refine ⟨i, hi, hagrees, fun i' device macs hspec hmacs hback' => ?_⟩
  obtain ⟨text, htext, hparse, -⟩ := hagrees.userdata
  have hdata := Provisioning.finalUserdata_of_parse hmacs (hspec ▸ htext) hparse
  rw [hspec] at hdata
  have hobtained := obtained_bootDocument (p := p) (m := m) (s := s) (d := d)
  have hjoins := hagrees.joins
  exact ⟨_, _, hdata, Boot.parse_render (hobtained.managed macs i.spec.managementBonding).tidy hback',
    ⟨hjoins.serverUrl, hjoins.token, hjoins.hostname, hjoins.password⟩, Boot.manages_withManagement ..⟩

/-- A token that would be read as nothing if it were not in quotes. -/
def quoted : JoinMaterial := { labMaterial with token := "null" }

/-- A device with one interface. -/
def oneInterface : Device where
  id := "d1"
  hostname := "edge-aaaaaaaa"
  state := "active"
  ports := [{ id := "p1", name := "eth0", kind := "NetworkPort", data := { mac := some "aa" } }]

/-- The boot document of an Instance of the pool that waits. -/
def quotedDocument : Document := (waiting "10m").bootDocument quoted .standard default

theorem readsBack_quoted : quotedDocument.ReadsBack := by
  rw [Document.ReadsBack, Boot.body_render]
  exact Yaml.readsBack_render rfl (by decide +kernel)

theorem readsBack_quoted_managed : (quotedDocument.withManagement ["aa"] ∅).ReadsBack := by
  rw [Document.ReadsBack, Boot.body_render]
  exact Yaml.readsBack_render rfl (by decide +kernel)

/-- The token arrives, at first and after the device was reconfigured. -/
theorem synthesize_agrees_quoted : ∃ i text b, (waiting "10m").synthesize quoted .standard default = .ok i ∧
    (waiting "10m").Agrees quoted i quotedDocument ∧ quotedDocument.token = "null" ∧
    Provisioning.finalUserdata i oneInterface = .ok text ∧ Document.parse text = .ok b ∧
    b.token = "null" ∧ b.system.hostname = i.name := by
  obtain ⟨i, hi, hagrees, hmanaged⟩ :=
    synthesize_agrees (p := waiting "10m") rfl rfl quoted .standard default readsBack_quoted
  have hspec := (makes_of_synthesize hi).spec
  have hmacs : Provisioning.managementMacs i oneInterface = .ok ["aa"] := by
    unfold Provisioning.managementMacs
    rw [hspec]
    rfl
  obtain ⟨text, b, hdata, hparse, hjoins, -⟩ :=
    hmanaged i oneInterface ["aa"] rfl hmacs (hspec ▸ readsBack_quoted_managed)
  exact ⟨i, text, b, hi, hagrees, rfl, hdata, hparse, hjoins.token, hjoins.hostname⟩

end Pool

end BareMetal
