import BareMetal.Proofs.Device.Planning
import Mathlib.Data.List.Nodup

/-!
# Planning again

Planning again after a part of a plan was carried out, with the effects that planning assumes. The
rest of the plan comes out exactly unless bonds were first taken apart and then made whole again,
since then they are taken apart once more (`Plan.resumes_iff`). Only the routed topology does both.
-/

namespace BareMetal

open PortChange

variable {s s' : List PortState} {d d' : Device} {n : Networking} {t : Topology}
  {w : String × PortChange} {ws : List (String × PortChange)} {as : List PortAction} {k : Nat}

/-- The first device is the second after the operations, as planning assumes their effects. What
the service sees of the topology stays. -/
structure Device.Follows (d' d : Device) (as : List PortAction) : Prop where
  id : d'.id = d.id
  networkType : d'.networkType = d.networkType
  ports : d'.ports.map .ofPort = Plan.after (d.ports.map .ofPort) as

namespace Plan

/-- The conversion of the device undoes one of the operations: it takes the bonds apart, and a port
that is bonded makes them whole. -/
def Reverts (d : Device) (n : Networking) (as : List PortAction) : Prop :=
  Topology.ofName? n.topology = some .layer3 ∧ d.networkType ≠ some Topology.layer3.name ∧
    (∃ p ∈ d.ports, p.isBond) ∧ ∃ a ∈ as, a.change = .bond

/-! ## What is wanted -/

/-- The changes that lead a device to a topology and attach the virtual networks. -/
def wanted (d : Device) (n : Networking) (t : Topology) : List (String × PortChange) :=
  (if d.networkType = some t.name then [] else conversion (d.ports.map .ofPort) t) ++ attachments n

theorem make_eq_ok_iff : make d n = .ok as ↔ ∃ t, Topology.ofName? n.topology = some t ∧
    ∃ s', Makes (d.ports.map .ofPort) (wanted d n t) as s' := by
  unfold make
  cases Topology.ofName? n.topology with
  | none => simp
  | some t =>
    have hfold (r : Plan) : (wanted d n t).foldlM (step d.id) ⟨d.ports.map .ofPort, []⟩ = .ok r ↔
        ∃ as, r.actions = as ∧ Makes (d.ports.map .ofPort) (wanted d n t) as r.ports :=
      foldlM_step_eq_ok_iff d.id
    change ((wanted d n t).foldlM (step d.id) ⟨d.ports.map .ofPort, []⟩ >>= fun plan =>
      (pure plan.actions : Except DeviceFailure _)) = .ok as ↔ _
    constructor
    · intro h
      cases hr : (wanted d n t).foldlM (step d.id) ⟨d.ports.map .ofPort, []⟩ with
      | error f =>
        rw [hr] at h
        cases h
      | ok r =>
        rw [hr] at h
        cases h
        obtain ⟨as, has, hmakes⟩ := (hfold r).1 hr
        exact ⟨t, rfl, r.ports, has ▸ hmakes⟩
    · rintro ⟨t', ht, s', h⟩
      cases ht
      rw [(hfold ⟨s', as⟩).2 ⟨as, rfl, h⟩]
      rfl

theorem names_eq (s : List PortState) (bonds : Bool) : names s bonds =
    ((s.map fun p => (p.name, p.isBond)).filter (·.2 = bonds)).map (·.1) := by
  simp only [names, List.filter_map, List.map_map]
  rfl

/-- A conversion depends on the names and kinds of the ports alone. -/
theorem conversion_congr
    (h : s'.map (fun p => (p.name, p.isBond)) = s.map fun p => (p.name, p.isBond)) (t : Topology) :
    conversion s' t = conversion s t := by
  have hnames (bonds : Bool) : names s' bonds = names s bonds := by rw [names_eq, names_eq, h]
  have hany (n : String) : s'.any (·.name = n) = s.any (·.name = n) := by
    have := congrArg (List.any · (·.1 = n)) h
    simpa only [List.any_map, Function.comp_def] using this
  cases t <;> simp only [conversion, hnames, hany]

theorem wanted_of_follows (h : Makes (d.ports.map .ofPort) ws as s') (hd : d'.networkType = d.networkType)
    (hs : d'.ports.map .ofPort = s') : wanted d' n t = wanted d n t := by
  rw [wanted, wanted, hd, hs, conversion_congr h.shape]

theorem mem_attachments (hw : w ∈ attachments n) : ∃ vnid, w.2 = .attach vnid := by
  obtain ⟨p, -, hw⟩ := List.mem_flatMap.1 hw
  obtain ⟨vnid, -, rfl⟩ := List.mem_map.1 hw
  exact ⟨vnid, rfl⟩

theorem not_opposes_attachments {c : PortChange} (hw : w ∈ attachments n) :
    ¬c.Opposes w.2 ∧ ¬w.2.Opposes c := by
  obtain ⟨vnid, hvnid⟩ := mem_attachments hw
  rw [hvnid]
  cases c <;> exact ⟨id, id⟩

theorem not_opposes_conversion (ht : t ≠ .layer3) :
    ∀ v ∈ conversion s t, ∀ w ∈ conversion s t, ¬v.2.Opposes w.2 := by
  intro v hv w hw
  cases t with
  | layer3 => exact absurd rfl ht
  | hybridBonded => cases hv
  | layer2Individual | layer2Bonded | hybrid =>
    simp only [conversion, List.mem_append, List.mem_cons, List.mem_map] at hv hw
    grind [Opposes]

/-- The routed topology takes all bonds apart before any port is bonded. -/
theorem pairwise_layer3 (s : List PortState) : (conversion s .layer3).Pairwise fun v w =>
    (v.2.Opposes w.2 → w.2 = .bond ∧ ∃ p ∈ s, p.isBond) ∧ (v.2 = .bond → w.2 ≠ .disbond) := by
  have hdisbond {w : String × PortChange} (hw : w ∈ (names s true).map (·, .disbond)) :
      w.2 = .disbond ∧ ∃ p ∈ s, p.isBond := by
    obtain ⟨x, hx, rfl⟩ := List.mem_map.1 hw
    obtain ⟨p, hp, -⟩ := List.mem_map.1 hx
    exact ⟨rfl, p, by simpa using hp⟩
  have hbond {w : String × PortChange} (hw : w ∈ (names s false).map (·, .bond)) : w.2 = .bond := by
    obtain ⟨x, -, rfl⟩ := List.mem_map.1 hw
    rfl
  refine List.pairwise_append.2 ⟨?_, List.pairwise_cons.2 ⟨fun w hw => ?_, ?_⟩, fun v hv w hw => ?_⟩
  · refine List.pairwise_of_forall_mem_list fun v hv w hw => ?_
    rw [(hdisbond hv).1, (hdisbond hw).1]
    exact ⟨nofun, nofun⟩
  · rw [hbond hw]
    exact ⟨nofun, nofun⟩
  · refine List.pairwise_of_forall_mem_list fun v hv w hw => ?_
    rw [hbond hv, hbond hw]
    exact ⟨nofun, fun _ => nofun⟩
  · obtain ⟨hv, hbonds⟩ := hdisbond hv
    rw [hv]
    rcases List.mem_cons.1 hw with rfl | hw
    · exact ⟨nofun, nofun⟩
    · exact ⟨fun _ => ⟨hbond hw, hbonds⟩, nofun⟩

/-- Of the wanted changes, none undoes an earlier one, except that bonding undoes taking apart when
a device with bonds comes to be routed. -/
theorem pairwise_wanted : (wanted d n t).Pairwise fun v w => v.2.Opposes w.2 →
    w.2 = .bond ∧ t = .layer3 ∧ d.networkType ≠ some t.name ∧ ∃ p ∈ d.ports, p.isBond := by
  refine List.pairwise_append.2 ⟨?_, ?_, fun v _ w hw h => ?_⟩
  · split
    · exact .nil
    · next hne =>
      by_cases ht : t = .layer3
      · subst ht
        refine (pairwise_layer3 _).imp fun h hop => ?_
        obtain ⟨hw, p, hp, hbond⟩ := h.1 hop
        obtain ⟨q, hq, rfl⟩ := List.mem_map.1 hp
        exact ⟨hw, rfl, hne, q, hq, hbond⟩
      · exact List.pairwise_of_forall_mem_list fun v hv w hw h =>
          absurd h (not_opposes_conversion ht v hv w hw)
  · exact List.pairwise_of_forall_mem_list fun v _ w hw h => absurd h (not_opposes_attachments hw).1
  · exact absurd h (not_opposes_attachments hw).1

/-! ## What is done stays done -/

/-- After a run that does not undo what it has done, every wanted change is done. -/
theorem Makes.settled_all (h : Makes s ws as s')
    (hws : ws.Pairwise fun v w => v.2.Opposes w.2 → ∀ a ∈ as, a.change ≠ w.2) :
    ∀ w ∈ ws, Settled s' w := by
  induction h with
  | nil => nofun
  | @skip s s' n c p ws as hp hd h ih =>
    obtain ⟨hfirst, hrest⟩ := List.pairwise_cons.1 hws
    refine List.forall_mem_cons.2 ⟨h.settled ⟨p, hp, hd⟩ fun a ha hop => ?_, ih hrest⟩
    exact hfirst _ (h.wanted ha) hop a ha rfl
  | @act s s' n c p ws as hp hd h ih =>
    obtain ⟨hfirst, hrest⟩ := List.pairwise_cons.1 hws
    have hrest : ws.Pairwise fun v w => v.2.Opposes w.2 → ∀ a ∈ as, a.change ≠ w.2 :=
      hrest.imp fun h hop a ha => h hop a (List.mem_cons_of_mem _ ha)
    refine List.forall_mem_cons.2 ⟨h.settled (settled_apply c hp) fun a ha hop => ?_, ih hrest⟩
    exact hfirst _ (h.wanted ha) hop a (List.mem_cons_of_mem _ ha) rfl

/-- From where a run was cut, the same wanted changes lead on as they did. -/
theorem Makes.resume {us vs : List (String × PortChange)} {mid : List PortState}
    {bs : List PortAction} (h : Makes s us as mid) (h' : Makes mid vs bs s')
    (hus : us.Pairwise fun v w => v.2.Opposes w.2 → ∀ a ∈ as, a.change ≠ w.2) :
    Makes mid (us ++ vs) bs s' :=
  (Makes.of_settled (h.settled_all hus)).append h'

/-! ## Bonds that are made whole -/

/-- Every bond is made up. -/
def Whole (s : List PortState) : Prop := ∀ q ∈ s, q.isBond → q.bonded

theorem whole_bond (p : PortState) (s : List PortState) : Whole (PortChange.bond.apply p s) := by
  intro q hq hbond
  obtain ⟨r, -, rfl⟩ := List.mem_map.1 hq
  split at hbond <;> simp_all

theorem Whole.apply {c : PortChange} (h : Whole s) (hc : c ≠ .disbond) (p : PortState) :
    Whole (c.apply p s) := by
  intro q hq hbond
  obtain ⟨r, hr, ht⟩ := exists_mem_of_forall₂ (forall₂_apply c p s) hq
  exact (ht.freed (h r hr (ht.isBond ▸ hbond))).resolve_right hc

/-- After a port was bonded, all bonds are whole until one is taken apart. -/
theorem Makes.whole (h : Makes s ws as s') (hws : ws.Pairwise fun v w => v.2 = .bond → w.2 ≠ .disbond)
    (has : ∃ a ∈ as, a.change = .bond) : Whole s' := by
  induction h with
  | nil =>
    obtain ⟨a, ha, -⟩ := has
    cases ha
  | skip _ _ _ ih => exact ih (List.pairwise_cons.1 hws).2 has
  | @act s s' n c p ws as hp hd h ih =>
    obtain ⟨hfirst, hrest⟩ := List.pairwise_cons.1 hws
    by_cases hc : c = .bond
    · subst hc
      exact h.keeps (whole_bond p s) fun a ha _ _ _ hs => hs.apply (hfirst _ (h.wanted ha) rfl) _
    · obtain ⟨a, ha, hbond⟩ := has
      rcases List.mem_cons.1 ha with rfl | ha
      · exact absurd hbond hc
      · exact ih hrest ⟨a, ha, hbond⟩

theorem pairwise_routed (hd : d.networkType ≠ some Topology.layer3.name) :
    (wanted d n .layer3).Pairwise fun v w => v.2 = .bond → w.2 ≠ .disbond := by
  rw [wanted, if_neg hd]
  refine List.pairwise_append.2 ⟨(pairwise_layer3 _).imp And.right, ?_, fun v _ w hw _ => ?_⟩
  · refine List.pairwise_of_forall_mem_list fun v _ w hw _ => ?_
    obtain ⟨vnid, hvnid⟩ := mem_attachments hw
    simp [hvnid]
  · obtain ⟨vnid, hvnid⟩ := mem_attachments hw
    simp [hvnid]

/-- Where the bonds are whole, routing starts by taking one apart. -/
theorem Makes.disbonds (hs : (s.map (·.name)).Nodup) (hwhole : Whole s) (hbonds : ∃ p ∈ s, p.isBond)
    (h : Makes s (conversion s .layer3 ++ ws) as s') : ∃ a ∈ as, a.change = .disbond := by
  obtain ⟨b, rest, hb⟩ : ∃ b rest, s.filter (·.isBond) = b :: rest := by
    obtain ⟨p, hp, hbond⟩ := hbonds
    exact List.exists_cons_of_ne_nil fun h => List.filter_eq_nil_iff.1 h p hp hbond
  obtain ⟨hmem, hbond⟩ := List.mem_filter.1 (hb ▸ List.mem_cons_self : b ∈ s.filter (·.isBond))
  have hfirst : conversion s .layer3 ++ ws = (b.name, .disbond) :: (rest.map fun p => (p.name, .disbond)) ++
      ((primaryBond, .toLayer3) :: (names s false).map (·, .bond)) ++ ws := by
    simp [conversion, names, hb]
  -- the first port with the name of the bond is the bond itself, as names are distinct
  have hfind {p : PortState} (hp : s.find? (·.name = b.name) = some p) : p = b :=
    List.inj_on_of_nodup_map hs (List.mem_of_find?_eq_some hp) hmem (by simpa using List.find?_some hp)
  rw [hfirst, List.cons_append, List.cons_append] at h
  cases h with
  | skip hp hd =>
    rw [hfind hp] at hd
    have := hwhole b hmem hbond
    simp [isDone, this] at hd
  | act => exact ⟨_, List.mem_cons_self, rfl⟩

end Plan

/-! ## Planning again -/

/-- Planning again for a device with distinct port names, after a part of its plan was carried out,
gives exactly the rest of the plan, unless the conversion undoes that part: a device with bonds that
is not reported to be routed yet is to be routed, and a port of it was bonded already. Then its bonds
are taken apart again. In particular nothing is left of a plan that was carried out to its end exactly
if the conversion does not undo it. -/
theorem Plan.resumes_iff (hd : (d.ports.map (·.name)).Nodup) (h : make d n = .ok as)
    (h' : d'.Follows d (as.take k)) :
    make d' n = .ok (as.drop k) ↔ ¬Reverts d n (as.take k) := by
  obtain ⟨t, ht, s', hmakes⟩ := make_eq_ok_iff.1 h
  obtain ⟨us, vs, mid, hsplit, hus, hvs⟩ := hmakes.cut k
  have hmid : d'.ports.map .ofPort = mid := h'.ports.trans hus.eq_after.symm
  have hwanted : wanted d' n t = us ++ vs := (wanted_of_follows hus h'.networkType hmid).trans hsplit
  have hpairwise : (us ++ vs).Pairwise _ := hsplit ▸ pairwise_wanted
  constructor
  · rintro hagain ⟨hlayer3, hne, hbonds, hbonded⟩
    obtain rfl : t = .layer3 := Option.some.inj (ht.symm.trans hlayer3)
    obtain ⟨a, ha, hbond⟩ := hbonded
    have hrouted : (us ++ vs).Pairwise _ := hsplit ▸ pairwise_routed hne
    obtain ⟨hpast, -, hahead⟩ := List.pairwise_append.1 hrouted
    -- the bonds are whole where the plan was cut, so planning again takes one apart
    have hwhole : Whole mid := hus.whole hpast ⟨a, ha, hbond⟩
    have hagain : ∃ r, Makes mid (conversion mid .layer3 ++ attachments n) (as.drop k) r := by
      obtain ⟨t', ht', r, hr⟩ := make_eq_ok_iff.1 hagain
      obtain rfl : t' = .layer3 := Option.some.inj (ht'.symm.trans hlayer3)
      rw [wanted, if_neg (h'.networkType ▸ hne), hmid] at hr
      exact ⟨r, hr⟩
    have hnames : (mid.map (·.name)).Nodup := by
      rw [hus.map_name, List.map_map]
      exact hd
    have hbonds : ∃ p ∈ mid, p.isBond := by
      obtain ⟨p, hp, hbond⟩ := hbonds
      exact hus.exists_bond ⟨.ofPort p, List.mem_map_of_mem hp, hbond⟩
    obtain ⟨r, hr⟩ := hagain
    obtain ⟨b, hb, hdisbond⟩ := hr.disbonds hnames hwhole hbonds
    -- but the rest of the plan takes none apart
    exact hahead _ (hus.wanted ha) _ (hvs.wanted hb) hbond hdisbond
  · intro hnot
    refine make_eq_ok_iff.2 ⟨t, ht, s', ?_⟩
    rw [hwanted, hmid]
    refine hus.resume hvs ((List.pairwise_append.1 hpairwise).1.imp fun hvw hop a ha hchange => ?_)
    obtain ⟨hbond, rfl, hne, hbonds⟩ := hvw hop
    exact hnot ⟨ht, hne, hbonds, a, ha, hchange.trans hbond⟩

/-- A machine with a bond of one port, which the service reports to be switched. -/
def Device.switched (bonded : Bool) (mode : Option String) : Device where
  id := "d1"
  networkType := some "layer2-bonded"
  ports := [⟨"b0", "bond0", "NetworkBondPort", mode, { bonded }, []⟩,
    ⟨"e0", "eth0", "NetworkPort", none, { bonded }, []⟩]

/-- Its way to be routed. -/
def Device.routing : List PortAction :=
  [⟨.disbond, "b0", "bond0"⟩, ⟨.toLayer3, "b0", "bond0"⟩, ⟨.bond, "e0", "eth0"⟩]

/-- Taking the bond apart is not done again. -/
theorem Plan.resumes_after_disbond :
    ((Device.switched true none).ports.map (·.name)).Nodup ∧
      Plan.make (.switched true none) { topology := "layer3" } = .ok Device.routing ∧
      (Device.switched false none).Follows (.switched true none) (Device.routing.take 1) ∧
      Plan.make (.switched false none) { topology := "layer3" } = .ok (Device.routing.drop 1) := by
  have hd : ((Device.switched true none).ports.map (·.name)).Nodup := by decide
  have h : Plan.make (.switched true none) { topology := "layer3" } = .ok Device.routing := rfl
  have h' : (Device.switched false none).Follows (.switched true none) (Device.routing.take 1) :=
    ⟨rfl, rfl, rfl⟩
  refine ⟨hd, h, h', (Plan.resumes_iff hd h h').2 ?_⟩
  rintro ⟨-, -, -, a, ha, hbond⟩
  obtain rfl : a = ⟨.disbond, "b0", "bond0"⟩ := by simpa [Device.routing] using ha
  cases hbond

/-- After the whole plan, the next one takes the bond apart and makes it up again. -/
theorem Plan.replans_whole :
    ((Device.switched true none).ports.map (·.name)).Nodup ∧
      ((Device.switched true none).ports.map (·.id)).Nodup ∧
      Plan.make (.switched true none) { topology := "layer3" } = .ok Device.routing ∧
      (Device.switched true (some "layer3")).Follows (.switched true none) Device.routing ∧
      Plan.make (.switched true (some "layer3")) { topology := "layer3" } =
        .ok [⟨.disbond, "b0", "bond0"⟩, ⟨.bond, "e0", "eth0"⟩] :=
  ⟨by decide, by decide, rfl, ⟨rfl, rfl, rfl⟩, rfl⟩

end BareMetal
