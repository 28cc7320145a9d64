import BareMetal.Device.Basic
import BareMetal.Instance.Basic
import BareMetal.Pool.Basic
import BareMetal.Proofs.Json.Forms

/-!
# What is written of records is read back

The specs and statuses of Instances and pools, networking configurations, devices and their ports: each
form undoes its writing, as its members do one by one. A price is the only number that is not whole; one
that is not finite is written as `null` and read as no price at all.
-/

namespace BareMetal

open Json

variable {n : Nat}

/-! ## Networking -/

theorem PortNetworks.undoes_form (p : PortNetworks) : form.Undoes (n + 2) p := by
  refine Form.undoes_record ?_ (by decide)
  exact (Fields.undoes_required (Form.undoes_text _)).map PortNetworks.mk
    |>.seq (Fields.undoes_withDefault (Form.undoes_list fun s _ => Form.undoes_text s))

theorem Networking.undoes_form (net : Networking) : form.Undoes (n + 4) net := by
  refine Form.undoes_record ?_ (by decide)
  exact (Fields.undoes_withDefault (Form.undoes_text _)).map Networking.mk
    |>.seq (Fields.undoes_withDefault (Form.undoes_list fun p _ => p.undoes_form))

/-! ## Instances -/

/-- The price is a number, if there is one. -/
def InstanceSpec.IsFinite (s : InstanceSpec) : Prop := ∀ x, s.spotPriceMax = some x → x.isFinite

theorem InstanceSpec.undoes_form {s : InstanceSpec} (h : s.IsFinite) : form.Undoes (n + 5) s := by
  refine Form.undoes_record ?_ (by decide)
  exact (Fields.undoes_required (Form.undoes_text _)).map InstanceSpec.mk
    |>.seq Fields.undoes_texts
    |>.seq Fields.undoes_text?
    |>.seq (Fields.undoes_required (Form.undoes_text _))
    |>.seq (Fields.undoes_withDefault (Form.undoes_text _))
    |>.seq Fields.undoes_text?
    |>.seq Fields.undoes_text?
    |>.seq Fields.undoes_texts
    |>.seq Fields.undoes_text?
    |>.seq Fields.undoes_text?
    |>.seq (Fields.undoes_optional fun i _ => ⟨Form.undoes_int32 i, rfl⟩)
    |>.seq (Fields.undoes_withDefault (Form.undoes_flag _))
    |>.seq Fields.undoes_text?
    |>.seq (Fields.undoes_withDefault (Form.undoes_flag _))
    |>.seq (Fields.undoes_float? h)
    |>.seq Fields.undoes_text?
    |>.seq Fields.undoes_texts
    |>.seq Fields.undoes_texts
    |>.seq Fields.undoes_textEntries
    |>.seq (Fields.undoes_withDefault (Form.undoes_flag _))
    |>.seq Fields.undoes_text?
    |>.seq Fields.undoes_texts
    |>.seq Fields.undoes_textEntries
    |>.seq (Fields.undoes_optional fun net _ => ⟨net.undoes_form, rfl⟩)

theorem InstanceStatus.undoes_form (st : InstanceStatus) : form.Undoes (n + 1) st := by
  refine Form.undoes_record ?_ (by decide)
  exact (Fields.undoes_withDefault (Form.undoes_choice st.phase.ofName?_name)).map InstanceStatus.mk
    |>.seq Fields.undoes_text?
    |>.seq Fields.undoes_text?
    |>.seq Fields.undoes_text?
    |>.seq Fields.undoes_text?

/-! ## Pools -/

/-- The price is a number, if there is one. -/
def PoolSpec.IsFinite (s : PoolSpec) : Prop := ∀ x, s.spotPriceMax = some x → x.isFinite

theorem PoolSpec.undoes_form {s : PoolSpec} (h : s.IsFinite) : form.Undoes (n + 5) s := by
  refine Form.undoes_record ?_ (by decide)
  exact (Fields.undoes_required (Form.undoes_int32 _)).map PoolSpec.mk
    |>.seq (Fields.undoes_withDefault (Form.undoes_text _))
    |>.seq (Fields.undoes_withDefault (Form.undoes_flag _))
    |>.seq (Fields.undoes_float? h)
    |>.seq Fields.undoes_text?
    |>.seq Fields.undoes_texts
    |>.seq Fields.undoes_texts
    |>.seq Fields.undoes_textEntries
    |>.seq (Fields.undoes_withDefault (Form.undoes_flag _))
    |>.seq Fields.undoes_texts
    |>.seq Fields.undoes_textEntries
    |>.seq Fields.undoes_text?
    |>.seq Fields.undoes_text?
    |>.seq (Fields.undoes_required (Form.undoes_text _))
    |>.seq Fields.undoes_text?
    |>.seq Fields.undoes_texts
    |>.seq Fields.undoes_text?
    |>.seq (Fields.undoes_optional fun net _ => ⟨net.undoes_form, rfl⟩)

theorem PoolStatus.undoes_form (st : PoolStatus) : form.Undoes (n + 1) st := by
  refine Form.undoes_record ?_ (by decide)
  exact (Fields.undoes_withDefault (Form.undoes_choice st.phase.ofName?_name)).map PoolStatus.mk
    |>.seq (Fields.undoes_withDefault (Form.undoes_int32 _))
    |>.seq (Fields.undoes_withDefault (Form.undoes_int32 _))
    |>.seq (Fields.undoes_withDefault (Form.undoes_int32 _))
    |>.seq Fields.undoes_text?

/-! ## Devices -/

theorem Link.undoes_form (l : Link) : form.Undoes (n + 1) l := by
  refine Form.undoes_record ?_ (by decide)
  exact (Fields.undoes_required (Form.undoes_text _)).map Link.mk

theorem PortData.undoes_form (d : PortData) : form.Undoes (n + 1) d := by
  refine Form.undoes_record ?_ (by decide)
  exact Fields.undoes_text?.map PortData.mk
    |>.seq (Fields.undoes_withDefault (Form.undoes_flag _))

theorem Port.undoes_form (p : Port) : form.Undoes (n + 3) p := by
  refine Form.undoes_record ?_ (by decide)
  exact (Fields.undoes_required (Form.undoes_text _)).map Port.mk
    |>.seq (Fields.undoes_required (Form.undoes_text _))
    |>.seq (Fields.undoes_withDefault (Form.undoes_text _))
    |>.seq Fields.undoes_text?
    |>.seq (Fields.undoes_withDefault p.data.undoes_form)
    |>.seq (Fields.undoes_withDefault (Form.undoes_list fun l _ => l.undoes_form))

theorem Address.undoes_form (a : Address) : form.Undoes (n + 1) a := by
  refine Form.undoes_record ?_ (by decide)
  exact (Fields.undoes_required (Form.undoes_text _)).map Address.mk
    |>.seq (Fields.undoes_required (Form.undoes_byte _))
    |>.seq (Fields.undoes_withDefault (Form.undoes_flag _))

theorem Device.undoes_form (d : Device) : form.Undoes (n + 5) d := by
  refine Form.undoes_record ?_ (by decide)
  exact (Fields.undoes_required (Form.undoes_text _)).map Device.mk
    |>.seq (Fields.undoes_withDefault (Form.undoes_text _))
    |>.seq (Fields.undoes_withDefault (Form.undoes_text _))
    |>.seq Fields.undoes_text?
    |>.seq Fields.undoes_text?
    |>.seq Fields.undoes_text?
    |>.seq (Fields.undoes_withDefault (Form.undoes_list fun p _ => p.undoes_form))
    |>.seq (Fields.undoes_withDefault (Form.undoes_list fun a _ => a.undoes_form))

/-! ## All records -/

/-- Specs with finite prices, statuses, networking configurations, devices and ports are read back as they
were written. -/
theorem records_lossless :
    InstanceSpec.form.Lossless InstanceSpec.IsFinite ∧
    InstanceStatus.form.Lossless (fun _ => True) ∧
    PoolSpec.form.Lossless PoolSpec.IsFinite ∧
    PoolStatus.form.Lossless (fun _ => True) ∧
    Networking.form.Lossless (fun _ => True) ∧
    Device.form.Lossless (fun _ => True) ∧
    Port.form.Lossless (fun _ => True) := by
  have hroom : 5 < depthLimit := by decide
  refine ⟨?_, ?_, ?_, ?_, ?_, ?_, ?_⟩
  · exact Form.lossless (n := 5) (fun s hs => InstanceSpec.undoes_form hs) hroom
  · exact Form.lossless (n := 5) (fun st _ => st.undoes_form) hroom
  · exact Form.lossless (n := 5) (fun s hs => PoolSpec.undoes_form hs) hroom
  · exact Form.lossless (n := 5) (fun st _ => st.undoes_form) hroom
  · exact Form.lossless (n := 5) (fun net _ => net.undoes_form) hroom
  · exact Form.lossless (n := 5) (fun d _ => d.undoes_form) hroom
  · exact Form.lossless (n := 5) (fun p _ => p.undoes_form) hroom

/-- A spec with a price, and with texts that are there but empty. -/
def InstanceSpec.priced : InstanceSpec where
  plan := "c3.small.x86"
  metro := some ""
  operatingSystem := "custom_ipxe"
  publicIpv4SubnetSize := some (-1)
  spotPriceMax := some 0.07
  features := .ofList [("tpm", "1"), ("raid", "")]
  networking := some {}

/-- A device whose port has no details but a link. -/
def Device.linked : Device where
  id := "device-1"
  networkType := some ""
  ports := [{ id := "p0", name := "bond0", virtualNetworks := [⟨"/virtual-networks/vn-1"⟩] }]
  addresses := [⟨"2604::1", 255, true⟩]

/-- The keys of the spec come in another order when they are sorted. -/
theorem records_lossless_priced :
    InstanceSpec.priced.IsFinite ∧
    decode InstanceSpec.form.decode (InstanceSpec.form.encode .priced).canonical = .ok .priced ∧
    decode Device.form.decode (Device.form.encode .linked) = .ok .linked := by
  have hfinite : InstanceSpec.priced.IsFinite := by
    intro x hx
    cases hx
    decide
  obtain ⟨hspec, -, -, -, -, hdevice, -⟩ := records_lossless
  exact ⟨hfinite, hspec.canonical hfinite, hdevice.written trivial⟩

end BareMetal
