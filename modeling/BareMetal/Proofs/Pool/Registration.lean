import BareMetal.Proofs.Http.Authority
import BareMetal.Proofs.Pool.Growth
import BareMetal.Proofs.Pool.Validity

/-!
# Where machines register

A pass over a pool asks for the Service at which the cluster is reached, and every Instance that it creates
joins at the address of that Service (`Pool.joinsAtIngress_of_created`). The address goes into the boot
document as it is. That is right for names and dotted numbers; a numeric address with colons would have to be
in brackets (`Pool.registers_iff`).
-/

namespace BareMetal

variable {answer : (t : PoolStep) → t.Answer}

/-! ## What is created -/

namespace Pool

variable {p : Pool} {s : Settings} {b : Backoff} {place : Place} {t : PoolStep} {dest : t.Answer → Place}
  {i : Instance}

/-- The ingress is shown to have the address. -/
def ShownAt (s : Settings) (answer : (t : PoolStep) → t.Answer) (address : String) : Prop :=
  ∃ service, answer (.cluster (.getService s.ingressSpace s.ingressService)) = .ok (some service) ∧
    service.address? = some address

/-- The address that a pass has at the place is that of the ingress. -/
def Place.AtIngress (s : Settings) (answer : (t : PoolStep) → t.Answer) : Place → Prop
  | .locked (some address) | .creating address _ => ShownAt s answer address
  | .opened | .locked none | .counted _ | .ended => True

/-- The script keeps to the address that was shown. -/
theorem May.atIngress (h : May s p place t dest) (hplace : place.AtIngress s answer) :
    (dest (answer t)).AtIngress s answer := by
  cases h with
  | look => exact hplace
  | lock | unlock => trivial
  | findIngress =>
    refine Place.forall_after (P := Place.AtIngress s answer) trivial fun service? hanswer => ?_
    cases hshown : service?.bind (·.address?) with
    | none => trivial
    | some address =>
      obtain ⟨service, rfl, haddress⟩ := Option.bind_eq_some_iff.1 hshown
      exact ⟨service, hanswer, haddress⟩
  | listMissing | create => exact Place.forall_after (P := Place.AtIngress s answer) trivial fun _ _ => hplace
  | list | delete | record => exact Place.forall_after (P := Place.AtIngress s answer) trivial fun _ _ => trivial

/-- The Instance is made for the pool, to join at the address that the ingress is shown to have. -/
def JoinsAtIngress (p : Pool) (s : Settings) (answer : (t : PoolStep) → t.Answer) (i : Instance) : Prop :=
  ∃ m d, ShownAt s answer m.address ∧ p.synthesize m s d = .ok i

theorem joinsAtIngress_of_created (hi : .cluster (.createInstance i) ∈ ((p.pass s b).told answer).2) :
    p.JoinsAtIngress s answer i := by
  refine (pass_follows s b p).told (I := Place.AtIngress s answer)
    (P := fun t => ∀ i, t = .cluster (.createInstance i) → p.JoinsAtIngress s answer i)
    (fun hmay hplace => ⟨?_, hmay.atIngress hplace⟩) trivial _ hi i rfl
  rintro i rfl
  cases hmay with
  | look ht => cases ht
  | create _ hmade => exact ⟨_, _, hplace, hmade⟩

end Pool

/-! ## The address of registration -/

namespace Boot

open Http

variable {address : String}

/-- The text has one colon outside of brackets, and reads only as the port of registration of the host with
the address. -/
def Registers (url address : String) : Prop :=
  openColons false (authorityPart url) = 1 ∧ ∃ host : Host, host.Denotes address.toList ∧
    ∀ a, Reads url a ↔ a = ⟨none, host, some "8443".toList⟩

theorem toList_joinUrl : (joinUrl address).toList = secure ++ (address.toList ++ ':' :: "8443".toList) := by
  have hport : ":8443".toList = ':' :: "8443".toList := by decide
  show ("https://" ++ address ++ ":8443").toList = _
  rw [String.toList_append, String.toList_append, hport, List.append_assoc]
  rfl

theorem isDigit_port : ∀ c ∈ "8443".toList, c.isDigit = true := List.all_eq_true.1 (by decide)

/-- There is one colon more than in the address. -/
theorem openColons_joinUrl (h : ∀ c ∈ address.toList, isBare c = true) :
    openColons false (authorityPart (joinUrl address)) = address.toList.count ':' + 1 := by
  have hbare := bare_withPort h isDigit_port
  rw [authorityPart_of_bare toList_joinUrl hbare, openColons_of_bare hbare, List.count_append]
  rfl

theorem registers_of_unreserved (h : ∀ c ∈ address.toList, isUnreserved c = true) :
    Registers (joinUrl address) address := by
  have hcount : address.toList.count ':' = 0 := by
    refine List.count_eq_zero_of_not_mem fun hmem => ?_
    exact ne_of_kind (h ':' hmem) (by decide) rfl
  refine ⟨by rw [openColons_joinUrl (bare_of_unreserved h), hcount], .name address.toList, ⟨rfl, ?_⟩, ?_⟩
  · intro hcolons
    have htwo := hcolons.two_le_count
    omega
  · exact fun a => reads_iff toList_joinUrl h isDigit_port

/-- With the colons of the address, the text cannot be read. -/
theorem not_reads_joinUrl (h : IsColonAddress address.toList) :
    3 ≤ openColons false (authorityPart (joinUrl address)) ∧ ∀ a, ¬Reads (joinUrl address) a := by
  have htwo := h.two_le_count
  refine ⟨?_, fun a => not_reads toList_joinUrl h isDigit_port⟩
  rw [openColons_joinUrl fun c hc => isBare_of_isColonChar (h.chars c hc)]
  omega

theorem registers_iff_of_isAddress (h : IsAddress address.toList) :
    Registers (joinUrl address) address ↔ ¬IsColonAddress address.toList := by
  constructor
  · rintro ⟨hone, -⟩ hcolons
    have hthree := (not_reads_joinUrl hcolons).1
    omega
  · exact fun hcolons => registers_of_unreserved (h.isUnreserved hcolons)

end Boot

namespace Pool

open Boot Http

variable {p : Pool} {s : Settings} {b : Backoff} {i : Instance} {service : Cluster.Service} {address : String}

/-- A pass over a pool makes an Instance while the cluster is reached at the address of this Service. Where
its machine is told to register can be read as it is meant just if the address is no numeric one with colons.
Otherwise there are three colons or more, and it cannot be read at all. -/
theorem registers_iff
    (hservice : answer (.cluster (.getService s.ingressSpace s.ingressService)) = .ok (some service))
    (haddress : service.address? = some address) (hjoinable : IsAddress address.toList)
    (hi : .cluster (.createInstance i) ∈ ((p.pass s b).told answer).2) :
    ∃ document : Document, i.spec.userdata = some document.render ∧
      (Registers document.serverUrl address ↔ ¬IsColonAddress address.toList) ∧
      (IsColonAddress address.toList → 3 ≤ openColons false (authorityPart document.serverUrl) ∧
        ∀ a, ¬Reads document.serverUrl a) := by
  obtain ⟨m, d, ⟨service', hservice', haddress'⟩, hmade⟩ := joinsAtIngress_of_created hi
  have hm : m.address = address := by
    cases hservice.symm.trans hservice'
    exact Option.some.inj (haddress'.symm.trans haddress)
  have hurl : (p.bootDocument m s d).serverUrl = joinUrl address := hm ▸ rfl
  refine ⟨p.bootDocument m s d, by rw [(makes_of_synthesize hmade).spec]; rfl, ?_⟩
  rw [hurl]
  exact ⟨registers_iff_of_isAddress hjoinable, not_reads_joinUrl⟩

/-- What a pass over a pool without members meets where the cluster is reached at the IP address. -/
def reachedAt (ip : String) : (t : PoolStep) → t.Answer
  | .cluster (.getService ..) => .ok (some { status := some {
      loadBalancer := some { ingress := some [{ ip := some ip }] } } })
  | t => shown [] t

/-- The steps of a pass over a pool that wants one member. -/
def stepsAt (ip : String) : List PoolStep := (((wanting 1).pass .standard ∅).told (reachedAt ip)).2

theorem isColonAddress_fd00 : IsColonAddress "fd00::1".toList := by
  have hleft : IsGroup "fd00".toList := ⟨by decide, by decide, List.all_eq_true.1 (by decide)⟩
  have hright : IsGroup "1".toList := ⟨by decide, by decide, List.all_eq_true.1 (by decide)⟩
  exact .shortened (.inr (.last hleft)) (.inr (.last hright)) (by decide)

theorem isDotted_local : IsDotted "10.0.0.5".toList := ⟨10, 0, 0, 5, by decide +kernel⟩

/-- A machine that joins at dotted numbers can register. -/
theorem registers_iff_dotted : ∃ (i : Instance) (document : Document),
    .cluster (.createInstance i) ∈ stepsAt "10.0.0.5" ∧ i.spec.userdata = some document.render ∧
      Registers document.serverUrl "10.0.0.5" := by
  have hi : ∃ i, (stepsAt "10.0.0.5")[6]? = some (.cluster (.createInstance i)) :=
    ⟨_, by with_unfolding_all rfl⟩
  obtain ⟨i, hi⟩ := hi
  have hmem := List.mem_of_getElem? hi
  obtain ⟨document, hdocument, hregisters, -⟩ :=
    registers_iff (s := .standard) rfl rfl (.inl isDotted_local) hmem
  refine ⟨i, document, hmem, hdocument, hregisters.2 fun hcolons => ?_⟩
  exact absurd hcolons.two_le_count (by decide)

/-- A machine that joins at an address with colons cannot. -/
theorem not_registers_colons : ∃ (i : Instance) (document : Document),
    .cluster (.createInstance i) ∈ stepsAt "fd00::1" ∧ i.spec.userdata = some document.render ∧
      IsAddress "fd00::1".toList ∧ document.serverUrl = "https://fd00::1:8443" ∧
      ¬Registers document.serverUrl "fd00::1" := by
  have hi : ∃ i m d, (stepsAt "fd00::1")[6]? = some (.cluster (.createInstance i)) ∧
      i.spec.userdata = some ((wanting 1).bootDocument m .standard d).render ∧ m.address = "fd00::1" :=
    ⟨_, ⟨⟨"", ""⟩, "join", "fd00::1"⟩, default, by with_unfolding_all rfl, rfl, rfl⟩
  obtain ⟨i, m, d, hi, hdocument, hm⟩ := hi
  have hurl : ((wanting 1).bootDocument m .standard d).serverUrl = joinUrl "fd00::1" := hm ▸ rfl
  refine ⟨i, _, List.mem_of_getElem? hi, hdocument, .inr (.inl isColonAddress_fd00), hurl, ?_⟩
  rw [hurl]
  rintro ⟨-, host, -, hreads⟩
  exact (not_reads_joinUrl isColonAddress_fd00).2 _ ((hreads _).2 rfl)

end Pool

end BareMetal
