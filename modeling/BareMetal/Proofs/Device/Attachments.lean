import BareMetal.Proofs.Device.Destination
import Mathlib.Data.List.Induction

/-!
# Virtual networks in plans

A plan ends with the virtual networks. Each one that is listed for a port and that the port does not have yet is
attached once, in the order in which they are listed first (`Plan.attaches_missing`). The names of ports may repeat,
and so may what is listed.
-/

namespace BareMetal

open PortChange

/-- The virtual networks to attach, each with the name of its port. -/
def Networking.listed (n : Networking) : List (String × String) := n.ports.flatMap fun p => p.vlans.map (p.name, ·)

/-- The operation that attaches a virtual network to the port with a name, unless the port has it. -/
def Device.attachment? (d : Device) (w : String × String) : Option PortAction :=
  ((d.port? w.1).filter (!·.hasVlan w.2)).map fun p => ⟨.attach w.2, p.id, w.1⟩

namespace Plan

/-- The same, where planning has come to. -/
def attachment? (s : List PortState) (w : String × String) : Option PortAction :=
  ((s.find? (·.name = w.1)).filter (!·.vlans.contains w.2)).map fun p => ⟨.attach w.2, p.id, w.1⟩

variable {s s' : List PortState} {d : Device} {n : Networking} {c : PortChange} {p : PortState} {name m : String}
  {w : String × String} {ws : List (String × String)} {us : List (String × PortChange)} {as : List PortAction}

theorem attachments_eq (n : Networking) : attachments n = n.listed.map fun w => (w.1, .attach w.2) := by
  simp [attachments, Networking.listed, List.map_flatMap, Function.comp_def]

/-- The planner finds the ports and their virtual networks as the device shows them. -/
theorem attachment?_ofPort (d : Device) (w : String × String) :
    attachment? (d.ports.map .ofPort) w = d.attachment? w := by
  have hnames : (fun p : PortState => decide (p.name = w.1)) ∘ PortState.ofPort =
      fun p => decide (p.name = w.1) := rfl
  have hvlans (p : Port) : (PortState.ofPort p).vlans.contains w.2 = p.hasVlan w.2 := by
    rw [Bool.eq_iff_iff]
    simp [PortState.ofPort, Port.hasVlan]
  unfold attachment? Device.attachment? Device.port?
  rw [List.find?_map, hnames]
  cases d.ports.find? fun p => decide (p.name = w.1) with
  | none => rfl
  | some p =>
    simp only [Option.map_some, Option.filter_some, hvlans]
    split <;> rfl

/-! ## Changes that attach nothing -/

/-- What attaching needs to know of a port. -/
def networks (p : PortState) : String × String × List String := (p.id, p.name, p.vlans)

theorem map_networks_modifyFirst {f : PortState → PortState} (hf : ∀ q, networks (f q) = networks q) (name : String)
    (s : List PortState) : (modifyFirst name f s).map networks = s.map networks := by
  induction s with
  | nil => rfl
  | cons q s ih =>
    unfold modifyFirst
    split
    · rw [List.map_cons, List.map_cons, hf]
    · rw [List.map_cons, List.map_cons, ih]

theorem map_networks_apply (hc : ∀ v, c ≠ .attach v) (p : PortState) (s : List PortState) :
    (c.apply p s).map networks = s.map networks := by
  cases c with
  | disbond =>
    unfold apply
    rw [List.map_map]
    refine List.map_congr_left fun q _ => ?_
    dsimp only [Function.comp]
    split <;> rfl
  | bond =>
    unfold apply
    rw [List.map_map, ← map_networks_modifyFirst (f := ({ · with bonded := true })) (fun _ => rfl) p.name s]
    refine List.map_congr_left fun q _ => ?_
    dsimp only [Function.comp]
    split <;> rfl
  | toLayer2 | toLayer3 =>
    refine map_networks_modifyFirst (fun q => ?_) _ s
    rfl
  | attach v => exact absurd rfl (hc v)

theorem attachment?_congr (h : s'.map networks = s.map networks) (w : String × String) :
    attachment? s' w = attachment? s w := by
  have hfind (s : List PortState) : attachment? s w =
      (((s.map networks).find? (·.2.1 = w.1)).filter (!·.2.2.contains w.2)).map
        fun q => ⟨.attach w.2, q.1, w.1⟩ := by
    unfold attachment?
    rw [List.find?_map]
    change _ = Option.map _ (Option.filter _ (Option.map networks (s.find? fun p => decide (p.name = w.1))))
    cases s.find? fun p => decide (p.name = w.1) with
    | none => rfl
    | some p =>
      simp only [Option.map_some, Option.filter_some, networks]
      split <;> rfl
  rw [hfind, hfind, h]

theorem not_attach_conversion {t : Topology} : ∀ u ∈ conversion s t, ∀ v, u.2 ≠ .attach v := by
  intro u hu v
  cases t with
  | hybridBonded => cases hu
  | layer3 | layer2Individual | layer2Bonded | hybrid =>
    simp only [conversion, List.mem_append, List.mem_cons, List.mem_map] at hu
    grind

/-- The conversion leaves to attach what there was to attach. -/
theorem Makes.attachment?_eq (h : Makes s us as s') (hus : ∀ u ∈ us, ∀ v, u.2 ≠ .attach v) (w : String × String) :
    attachment? s' w = attachment? s w := by
  refine attachment?_congr ?_ w
  refine h.keeps (P := fun qs => qs.map networks = s.map networks) rfl fun a ha p qs _ hqs => ?_
  exact (map_networks_apply (hus _ (h.wanted ha)) p qs).trans hqs

/-! ## Attaching -/

theorem find?_modifyFirst_of_ne {f : PortState → PortState} (hf : ∀ q, (f q).name = q.name) (hm : m ≠ name)
    (s : List PortState) : (modifyFirst name f s).find? (·.name = m) = s.find? (·.name = m) := by
  induction s with
  | nil => rfl
  | cons q s ih =>
    unfold modifyFirst
    split
    · next hq => simp [hf, hq, hm.symm]
    · rw [List.find?_cons, List.find?_cons, ih]

theorem attachment?_of_find? (hp : s.find? (·.name = w.1) = some p) :
    attachment? s w = if w.2 ∈ p.vlans then none else some ⟨.attach w.2, p.id, w.1⟩ := by
  unfold attachment?
  rw [hp]
  by_cases hv : w.2 ∈ p.vlans <;> simp [hv]

/-- After a virtual network was attached, the others are still to be attached that were so before. -/
theorem attachment?_attach (hp : s.find? (·.name = w.1) = some p) (v : String × String) :
    attachment? ((attach w.2).apply p s) v = if v = w then none else attachment? s v := by
  obtain ⟨name, vnid⟩ := w
  obtain ⟨m, vnid'⟩ := v
  obtain rfl : p.name = name := by simpa using List.find?_some hp
  let f (q : PortState) : PortState := { q with vlans := q.vlans ++ [vnid] }
  have hf (q : PortState) : (f q).name = q.name := rfl
  change attachment? (modifyFirst p.name f s) _ = _
  by_cases hm : m = p.name
  · subst hm
    have hafter := find?_modifyFirst hf hp
    rw [attachment?_of_find? (w := (p.name, vnid')) hafter, attachment?_of_find? (w := (p.name, vnid')) hp]
    by_cases hv : vnid' = vnid <;> simp [f, hv]
  · unfold attachment?
    rw [find?_modifyFirst_of_ne hf hm, if_neg fun h => hm (congrArg Prod.fst h)]

/-- Of one virtual network that is wanted, the run takes the operation that attaches it, if there is one, and only
this is not to be attached any more. -/
theorem Makes.attach_one (h : Makes s [(w.1, .attach w.2)] as s') : as = (attachment? s w).toList ∧
    ∀ v, attachment? s' v = if v = w then none else attachment? s v := by
  cases h with
  | skip hp hd h =>
    cases h
    have hnone : attachment? s w = none := by
      rw [attachment?_of_find? hp, if_pos (List.contains_iff_mem.1 hd)]
    refine ⟨by rw [hnone]; rfl, fun v => ?_⟩
    split
    · next hv => rw [hv, hnone]
    · rfl
  | @act _ _ _ _ p _ _ hp hd h =>
    cases h
    have hname : p.name = w.1 := by simpa using List.find?_some hp
    refine ⟨?_, attachment?_attach hp⟩
    rw [attachment?_of_find? hp, if_neg (mt List.contains_iff_mem.2 hd), hname]
    rfl

theorem eraseDups_concat (ws : List (String × String)) (w : String × String) :
    (ws ++ [w]).eraseDups = if w ∈ ws then ws.eraseDups else ws.eraseDups ++ [w] := by
  rw [List.eraseDups_append]
  by_cases hw : w ∈ ws <;> simp [List.removeAll, List.eraseDups_cons, hw]

theorem nodup_eraseDups (ws : List (String × String)) : ws.eraseDups.Nodup := by
  induction ws using List.reverseRecOn with
  | nil => simp
  | append_singleton ws w ih =>
    rw [eraseDups_concat]
    split
    · exact ih
    · next hw => exact List.concat_eq_append ▸ ih.concat (mt List.mem_eraseDups.1 hw)

theorem Makes.attach_all (h : Makes s (ws.map fun w => (w.1, .attach w.2)) as s') :
    as = ws.eraseDups.filterMap (attachment? s) ∧
      ∀ v, attachment? s' v = if v ∈ ws then none else attachment? s v := by
  -- from the end, so that the last one is attached unless it was listed before or attached from the start
  induction ws using List.reverseRecOn generalizing as s' with
  | nil =>
    cases h
    exact ⟨rfl, fun v => by simp⟩
  | append_singleton ws w ih =>
    rw [List.map_append] at h
    obtain ⟨mid, bs, cs, rfl, hbefore, hlast⟩ := h.split
    obtain ⟨hbs, hmid⟩ := ih hbefore
    obtain ⟨hcs, hafter⟩ := hlast.attach_one
    rw [hmid] at hcs
    constructor
    · rw [eraseDups_concat, hbs, hcs]
      split
      · simp
      · cases hw : attachment? s w <;> simp [hw]
    · intro v
      rw [hafter, hmid]
      by_cases hv : v = w <;> simp [hv]

theorem Makes.name_mem (h : Makes s us as s') : ∀ u ∈ us, u.1 ∈ s.map (·.name) := by
  have hmem {s : List PortState} {p : PortState} {name : String} (hp : s.find? (·.name = name) = some p) :
      name ∈ s.map (·.name) :=
    List.mem_map.2 ⟨p, List.mem_of_find?_eq_some hp, by simpa using List.find?_some hp⟩
  induction h with
  | nil => nofun
  | skip hp _ _ ih => exact List.forall_mem_cons.2 ⟨hmem hp, ih⟩
  | act hp _ _ ih => exact List.forall_mem_cons.2 ⟨hmem hp, fun u hu => map_name_apply _ _ _ ▸ ih u hu⟩

/-- No virtual network is attached twice to a port. -/
theorem nodup_attaching (d : Device) (ws : List (String × String)) :
    ((ws.eraseDups.filterMap d.attachment?).map fun a => (a.portName, a.change)).Nodup := by
  have hpair {w : String × String} {b : String × PortChange}
      (hb : b ∈ (d.attachment? w).map fun a => (a.portName, a.change)) : b = (w.1, .attach w.2) := by
    simp only [Device.attachment?, Option.map_map, Option.mem_def, Option.map_eq_some_iff] at hb
    obtain ⟨p, -, rfl⟩ := hb
    rfl
  rw [List.map_filterMap]
  refine (nodup_eraseDups ws).filterMap fun v w b hv hw => ?_
  have heq := (hpair hv).symm.trans (hpair hw)
  simp only [Prod.mk.injEq, PortChange.attach.injEq] at heq
  exact Prod.ext heq.1 heq.2

/-- A plan that is made is some operations that attach nothing, and then, for what is listed, in the order in which
it is listed first, the operations that attach what is missing. All ports that are listed are there, and no virtual
network is attached twice to a port. -/
theorem attaches_missing (h : make d n = .ok as) : ∃ structural,
    as = structural ++ n.listed.eraseDups.filterMap d.attachment? ∧
      (∀ a ∈ structural, ∀ v, a.change ≠ .attach v) ∧ (∀ w ∈ n.listed, ∃ p, d.port? w.1 = some p) ∧
      ((n.listed.eraseDups.filterMap d.attachment?).map fun a => (a.portName, a.change)).Nodup := by
  obtain ⟨t, -, s', hmakes⟩ := make_eq_ok_iff.1 h
  unfold wanted at hmakes
  obtain ⟨mid, structural, attaching, rfl, hconversion, hattach⟩ := hmakes.split
  have hwanted : ∀ u ∈ if d.networkType = some t.name then [] else conversion (d.ports.map .ofPort) t,
      ∀ v, u.2 ≠ .attach v := by
    split
    · nofun
    · exact not_attach_conversion
  have hmissing (w : String × String) : attachment? mid w = d.attachment? w :=
    (hconversion.attachment?_eq hwanted w).trans (attachment?_ofPort d w)
  rw [attachments_eq] at hattach
  obtain ⟨rfl, -⟩ := hattach.attach_all
  rw [funext hmissing]
  refine ⟨structural, rfl, fun a ha => hwanted _ (hconversion.wanted ha), fun w hw => ?_, nodup_attaching d n.listed⟩
  have hname : w.1 ∈ mid.map (·.name) := hattach.name_mem _ (List.mem_map_of_mem hw)
  rw [hconversion.map_name, List.map_map] at hname
  obtain ⟨p, hp, hpname⟩ := List.mem_map.1 hname
  exact Option.isSome_iff_exists.1 (List.find?_isSome.2 ⟨p, hp, decide_eq_true hpname⟩)

end Plan

/-- A machine with two ports of the same name, one of which has a virtual network. -/
def Device.twofold : Device where
  id := "d1"
  networkType := some "hybrid"
  ports := [⟨"b0", "bond0", "NetworkBondPort", none, {}, [⟨"/virtual-networks/100"⟩]⟩,
    ⟨"e0", "eth0", "NetworkPort", none, {}, []⟩,
    ⟨"e1", "eth0", "NetworkPort", none, {}, [⟨"/virtual-networks/200"⟩]⟩]

/-- Virtual networks that are listed more than once. -/
def Networking.repeated : Networking where
  topology := "layer3"
  ports := [⟨"bond0", ["100", "200"]⟩, ⟨"eth0", ["200", "200"]⟩, ⟨"bond0", ["200", "300"]⟩]

/-- The missing virtual networks follow the conversion, each once. -/
theorem Plan.attaches_missing_repeated :
    let attaching : List PortAction :=
      [⟨.attach "200", "b0", "bond0"⟩, ⟨.attach "200", "e0", "eth0"⟩, ⟨.attach "300", "b0", "bond0"⟩]
    let plan : List PortAction := [⟨.toLayer3, "b0", "bond0"⟩, ⟨.bond, "e0", "eth0"⟩] ++ attaching
    make .twofold .repeated = .ok plan ∧ ∃ structural, plan = structural ++ attaching ∧
      (∀ a ∈ structural, ∀ v, a.change ≠ .attach v) ∧
      (attaching.map fun a => (a.portName, a.change)).Nodup := by
  intro attaching plan
  have h : make .twofold .repeated = .ok plan := rfl
  have hlisted : Networking.repeated.listed.eraseDups.filterMap Device.twofold.attachment? = attaching := by
    decide
  obtain ⟨structural, hsplit, hstructural, -, hnodup⟩ := attaches_missing h
  rw [hlisted] at hsplit hnodup
  exact ⟨h, structural, hsplit, hstructural, hnodup⟩

end BareMetal
