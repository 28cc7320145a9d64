import BareMetal.Proofs.Device.Resumption

/-!
# Where plans lead

Planning fails with the first wanted change whose port is absent (`Plan.make_eq_error_iff`). A plan
that is made has no idle operation (`Plan.Makes.progress`) and lays the ports out as its topology
asks (`Topology.Reached`, `Plan.reaches_target`): of what a conversion wants, only the taking apart
of bonds on the way to the routed topology does not last (`Plan.Makes.lasts`).
-/

namespace BareMetal

open PortChange

variable {s s' : List PortState} {d : Device} {n : Networking} {t : Topology} {p q : PortState}
  {w : String × PortChange} {us vs ws : List (String × PortChange)} {as : List PortAction}
  {f : DeviceFailure}

namespace PortState

/-- The port routes. -/
def IsRouted (p : PortState) : Prop := p.mode = some "layer3"

/-- The port is in a mode of layer 2. -/
def IsSwitched (p : PortState) : Prop := ∃ m, p.mode = some m ∧ m.startsWith "layer2"

/-- Which port it is, whether it is bonded, and its mode. -/
def layout (p : PortState) : String × Bool × Option String := (p.name, p.bonded, p.mode)

end PortState

/-- The layout of all ports but those with the names. -/
def layoutBeside (names : List String) (s : List PortState) : List (String × Bool × Option String) :=
  (s.filter (·.name ∉ names)).map (·.layout)

namespace Plan

/-- The ports that the hybrid topology takes out of the bond. -/
def splitPorts : List String := ["eth1", "eth3"]

end Plan

/-- The ports are laid out as the topology asks, given how they were before. -/
def Topology.Reached (t : Topology) (before after : List PortState) : Prop :=
  match t with
  | .layer3 => (∃ p ∈ after, p.name = Plan.primaryBond ∧ p.IsRouted) ∧
      ∀ p ∈ after, p.isBond = false → p.bonded = true
  | .layer2Individual => (∃ p ∈ after, p.name = Plan.primaryBond ∧ p.IsSwitched) ∧
      ∀ p ∈ after, p.isBond = false → p.bonded = false
  | .layer2Bonded => (∀ p ∈ after, p.isBond = true → p.IsSwitched) ∧
      ∀ p ∈ after, p.isBond = false → p.bonded = true
  | .hybrid => (∀ p ∈ after, p.name ∈ Plan.splitPorts → p.bonded = false) ∧
      layoutBeside Plan.splitPorts after = layoutBeside Plan.splitPorts before
  | .hybridBonded => after.map (·.layout) = before.map (·.layout)

namespace PortChange

variable {c : PortChange}

theorem isSwitched_of_isDone (h : isDone .toLayer2 p) : p.IsSwitched := by
  cases hm : p.mode with
  | none => simp [isDone, hm] at h
  | some m => exact ⟨m, hm, by simpa only [isDone, hm, Option.any_some] using h⟩

theorem isRouted_of_isDone (h : isDone .toLayer3 p) : p.IsRouted := by
  have hmode : p.mode = some "layer3" := by simpa only [isDone, decide_eq_true_eq] using h
  exact hmode

theorem map_name_apply (c : PortChange) (p : PortState) (s : List PortState) :
    (c.apply p s).map (·.name) = s.map (·.name) := by
  have hfst := congrArg (List.map Prod.fst) (map_shape_apply c p s)
  simpa only [List.map_map, Function.comp_def] using hfst

/-- A change that is not done yet changes something. -/
theorem apply_ne {name : String} (hp : s.find? (·.name = name) = some p) (hd : ¬c.isDone p) :
    c.apply p s ≠ s := by
  intro heq
  obtain ⟨q, hq, hdone⟩ := settled_apply c hp
  rw [heq, hp] at hq
  exact hd (Option.some.inj hq ▸ hdone)

/-- With distinct names, what is settled of a port's name is done on the port. -/
theorem Settled.isDone (hs : (s.map (·.name)).Nodup) (hp : p ∈ s) (h : Settled s (p.name, c)) :
    c.isDone p := by
  obtain ⟨q, hq, hdone⟩ := h
  have hname : q.name = p.name := by simpa using List.find?_some hq
  exact List.inj_on_of_nodup_map hs (List.mem_of_find?_eq_some hq) hp hname ▸ hdone

/-! ## What a change leaves alone -/

theorem layoutBeside_modifyFirst {g : PortState → PortState} (hg : ∀ q, (g q).layout = q.layout)
    (names : List String) (name : String) (s : List PortState) :
    layoutBeside names (modifyFirst name g s) = layoutBeside names s := by
  have hname (q : PortState) : (g q).name = q.name := congrArg Prod.fst (hg q)
  induction s with
  | nil => rfl
  | cons q rest ih =>
    unfold modifyFirst
    unfold layoutBeside at ih ⊢
    split
    · by_cases hq : q.name ∈ names <;> simp [hq, hname, hg]
    · by_cases hq : q.name ∈ names <;> simpa [hq] using ih

/-- Taking a physical port out of its bond leaves the other ports alone. -/
theorem layoutBeside_disbond {names : List String} (hbond : p.isBond = false) (hp : p.name ∈ names)
    (s : List PortState) : layoutBeside names (disbond.apply p s) = layoutBeside names s := by
  unfold layoutBeside apply
  simp only [hbond, Bool.false_and, Bool.or_false, List.filter_map, List.map_map]
  have hname : (fun q : PortState => decide (q.name ∉ names)) ∘
      (fun q => if decide (q.name = p.name) then { q with bonded := false } else q) =
        fun q => decide (q.name ∉ names) := by
    funext q
    dsimp only [Function.comp]
    split <;> rfl
  rw [hname]
  refine List.map_congr_left fun q hq => ?_
  have hne : q.name ≠ p.name := by
    rintro he
    simp [he, hp] at hq
  simp [hne]

end PortChange

namespace Plan

/-! ## Plans that cannot be made -/

/-- No port has the name. -/
def isAbsent (s : List PortState) (name : String) : Bool := (s.map (·.name)).all (· ≠ name)

theorem isAbsent_iff {name : String} : isAbsent s name ↔ ∀ p ∈ s, p.name ≠ name := by
  simp [isAbsent]

theorem isAbsent_apply (c : PortChange) (p : PortState) (s : List PortState) :
    isAbsent (c.apply p s) = isAbsent s := by
  funext name
  rw [isAbsent, map_name_apply, isAbsent]

/-- A run of wanted changes fails with the first one whose port is absent. -/
theorem foldlM_step_eq_error_iff (device : String) {plan : Plan} :
    ws.foldlM (step device) plan = .error f ↔
      ∃ name, (ws.map (·.1)).find? (isAbsent plan.ports) = some name ∧ f = .missingPort device name := by
  induction ws generalizing plan with
  | nil =>
    rw [List.foldlM_nil]
    exact ⟨nofun, fun ⟨_, h, _⟩ => nomatch h⟩
  | cons w ws ih =>
    obtain ⟨name, c⟩ := w
    rw [List.foldlM_cons, List.map_cons]
    cases hp : plan.ports.find? (·.name = name) with
    | none =>
      have hstep : step device plan (name, c) = .error (.missingPort device name) := by simp [step, hp]
      have habsent : isAbsent plan.ports name := by simpa [isAbsent] using hp
      rw [hstep, List.find?_cons_of_pos habsent]
      constructor
      · intro h
        cases h
        exact ⟨name, rfl, rfl⟩
      · rintro ⟨_, hname, rfl⟩
        cases hname
        rfl
    | some p =>
      have hthere : ¬isAbsent plan.ports name := fun ha =>
        isAbsent_iff.1 ha p (List.mem_of_find?_eq_some hp) (by simpa using List.find?_some hp)
      rw [List.find?_cons_of_neg hthere]
      by_cases hd : c.isDone p
      · have hstep : step device plan (name, c) = .ok plan := by simp [step, hp, hd]
        rw [hstep]
        exact ih
      · have hstep : step device plan (name, c) =
            .ok ⟨c.apply p plan.ports, plan.actions ++ [⟨c, p.id, p.name⟩]⟩ := by
          simp [step, hp, hd]
        rw [hstep, ← isAbsent_apply c p plan.ports]
        exact ih

/-- There is no plan for an unknown topology, or else because of the first wanted change whose port
is absent. -/
theorem make_eq_error_iff : make d n = .error f ↔
    (Topology.ofName? n.topology = none ∧ f = .unknownNetworkType n.topology) ∨
      ∃ t name, Topology.ofName? n.topology = some t ∧
        ((wanted d n t).map (·.1)).find? (isAbsent (d.ports.map .ofPort)) = some name ∧
        f = .missingPort d.id name := by
  unfold make
  cases Topology.ofName? n.topology with
  | none =>
    constructor
    · intro h
      cases h
      exact .inl ⟨rfl, rfl⟩
    · rintro (⟨-, rfl⟩ | ⟨t, name, ht, -⟩)
      · rfl
      · cases ht
  | some t =>
    have hfold : (wanted d n t).foldlM (step d.id) ⟨d.ports.map .ofPort, []⟩ = .error f ↔
        ∃ name, ((wanted d n t).map (·.1)).find? (isAbsent (d.ports.map .ofPort)) = some name ∧
          f = .missingPort d.id name := foldlM_step_eq_error_iff d.id
    change ((wanted d n t).foldlM (step d.id) ⟨d.ports.map .ofPort, []⟩ >>= fun plan =>
      (pure plan.actions : Except DeviceFailure _)) = .error f ↔ _
    constructor
    · intro h
      cases hr : (wanted d n t).foldlM (step d.id) ⟨d.ports.map .ofPort, []⟩ with
      | error g =>
        rw [hr] at h
        cases h
        obtain ⟨name, hname, hf⟩ := hfold.1 hr
        exact .inr ⟨t, name, rfl, hname, hf⟩
      | ok r =>
        rw [hr] at h
        cases h
    · rintro (⟨ht, -⟩ | ⟨t', name, ht, hname, hf⟩)
      · cases ht
      · cases ht
        rw [hfold.2 ⟨name, hname, hf⟩]
        rfl

/-- Of the ports that a conversion works on, only the primary bond can be absent. -/
theorem exists_absent_conversion : (∃ w ∈ conversion s t, isAbsent s w.1) ↔
    (t = .layer3 ∨ t = .layer2Individual) ∧ isAbsent s primaryBond := by
  have hnames {w : String × PortChange} {bonds : Bool} {c : PortChange}
      (hw : w ∈ (names s bonds).map (·, c)) : ¬isAbsent s w.1 := by
    obtain ⟨name, hname, rfl⟩ := List.mem_map.1 hw
    obtain ⟨p, hp, rfl⟩ := List.mem_map.1 hname
    exact fun ha => isAbsent_iff.1 ha p (List.mem_of_mem_filter hp) rfl
  cases t with
  | layer3 =>
    refine ⟨fun ⟨w, hw, ha⟩ => ⟨.inl rfl, ?_⟩, fun ⟨_, ha⟩ => ⟨(primaryBond, .toLayer3), ?_, ha⟩⟩
    · rcases List.mem_append.1 hw with hw | hw
      · exact absurd ha (hnames hw)
      · rcases List.mem_cons.1 hw with rfl | hw
        · exact ha
        · exact absurd ha (hnames hw)
    · exact List.mem_append_right _ List.mem_cons_self
  | layer2Individual =>
    refine ⟨fun ⟨w, hw, ha⟩ => ⟨.inr rfl, ?_⟩, fun ⟨_, ha⟩ => ⟨_, List.mem_cons_self, ha⟩⟩
    rcases List.mem_cons.1 hw with rfl | hw
    · exact ha
    · exact absurd ha (hnames hw)
  | layer2Bonded =>
    refine ⟨fun ⟨w, hw, ha⟩ => ?_, nofun⟩
    rcases List.mem_append.1 hw with hw | hw <;> exact absurd ha (hnames hw)
  | hybrid =>
    refine ⟨fun ⟨w, hw, ha⟩ => ?_, nofun⟩
    obtain ⟨name, hname, rfl⟩ := List.mem_map.1 hw
    obtain ⟨p, hp, he⟩ := List.any_eq_true.1 (List.mem_filter.1 hname).2
    exact absurd (of_decide_eq_true he) (isAbsent_iff.1 ha p hp)
  | hybridBonded =>
    refine ⟨fun ⟨w, hw, ha⟩ => ?_, nofun⟩
    cases hw

theorem exists_absent_attachments : (∃ w ∈ attachments n, isAbsent s w.1) ↔
    ∃ i ∈ n.ports, i.vlans ≠ [] ∧ isAbsent s i.name := by
  constructor
  · rintro ⟨w, hw, ha⟩
    obtain ⟨i, hi, hw⟩ := List.mem_flatMap.1 hw
    obtain ⟨vnid, hvnid, rfl⟩ := List.mem_map.1 hw
    exact ⟨i, hi, List.ne_nil_of_mem hvnid, ha⟩
  · rintro ⟨i, hi, hne, ha⟩
    obtain ⟨vnid, hvnid⟩ := List.exists_mem_of_ne_nil _ hne
    exact ⟨(i.name, .attach vnid), List.mem_flatMap.2 ⟨i, hi, List.mem_map_of_mem hvnid⟩, ha⟩

theorem exists_absent_wanted : (∃ w ∈ wanted d n t, isAbsent s w.1) ↔
    (d.networkType ≠ some t.name ∧ ∃ w ∈ conversion (d.ports.map .ofPort) t, isAbsent s w.1) ∨
      ∃ w ∈ attachments n, isAbsent s w.1 := by
  unfold wanted
  by_cases ht : d.networkType = some t.name
  · simp only [ht, if_true, List.nil_append, ne_eq, not_true_eq_false, false_and, false_or]
  · simp only [ht, if_false, List.mem_append, or_and_right, exists_or, ne_eq, not_false_eq_true,
      true_and]

/-- Nothing can be planned: the topology is unknown, or a port is absent that the conversion or a
virtual network is about. -/
def Impossible (d : Device) (n : Networking) : Prop :=
  Topology.ofName? n.topology = none ∨
    (∃ t, Topology.ofName? n.topology = some t ∧ d.networkType ≠ some t.name ∧
      (t = .layer3 ∨ t = .layer2Individual) ∧ ∀ p ∈ d.ports, p.name ≠ primaryBond) ∨
    ∃ i ∈ n.ports, i.vlans ≠ [] ∧ ∀ p ∈ d.ports, p.name ≠ i.name

theorem exists_error_iff : (∃ f, make d n = .error f) ↔ Impossible d n := by
  have habsent (name : String) :
      isAbsent (d.ports.map .ofPort) name ↔ ∀ p ∈ d.ports, p.name ≠ name := by
    simp [isAbsent_iff, PortState.ofPort]
  have hfind (t : Topology) :
      (∃ name, ((wanted d n t).map (·.1)).find? (isAbsent (d.ports.map .ofPort)) = some name) ↔
        (d.networkType ≠ some t.name ∧ (t = .layer3 ∨ t = .layer2Individual) ∧
          ∀ p ∈ d.ports, p.name ≠ primaryBond) ∨
        ∃ i ∈ n.ports, i.vlans ≠ [] ∧ ∀ p ∈ d.ports, p.name ≠ i.name := by
    rw [← Option.isSome_iff_exists, List.find?_isSome]
    simp only [← habsent, List.mem_map, exists_exists_and_eq_and, exists_absent_wanted,
      exists_absent_conversion, exists_absent_attachments]
  unfold Impossible
  cases ht : Topology.ofName? n.topology with
  | none => exact ⟨fun _ => .inl rfl, fun _ => ⟨_, make_eq_error_iff.2 (.inl ⟨ht, rfl⟩)⟩⟩
  | some t =>
    have hmake : (∃ f, make d n = .error f) ↔
        ∃ name, ((wanted d n t).map (·.1)).find? (isAbsent (d.ports.map .ofPort)) = some name := by
      simp [make_eq_error_iff, ht]
    rw [hmake, hfind t]
    simp

/-! ## Every operation changes something -/

theorem Makes.progress (h : Makes s ws as s') {k : Nat} (hk : k < as.length) :
    after s (as.take (k + 1)) ≠ after s (as.take k) := by
  induction h generalizing k with
  | nil => cases hk
  | skip _ _ _ ih => exact ih hk
  | @act s s' name c p ws as hp hd _ ih =>
    obtain rfl : p.name = name := by simpa using List.find?_some hp
    have hfirst (bs : List PortAction) :
        after s (⟨c, p.id, p.name⟩ :: bs) = after (c.apply p s) bs := by
      simp [after, PortAction.effect, hp]
    cases k with
    | zero =>
      rw [List.take_succ_cons, hfirst]
      exact apply_ne hp hd
    | succ k =>
      rw [List.take_succ_cons, List.take_succ_cons, hfirst, hfirst]
      exact ih (Nat.lt_of_succ_lt_succ hk)

/-! ## What lasts -/

theorem Makes.split (h : Makes s (us ++ vs) as s') : ∃ mid bs cs, as = bs ++ cs ∧
    Makes s us bs mid ∧ Makes mid vs cs s' := by
  induction us generalizing s as with
  | nil => exact ⟨s, [], as, rfl, .nil s, h⟩
  | cons w us ih =>
    cases h with
    | skip hp hd h =>
      obtain ⟨mid, bs, cs, rfl, hus, hvs⟩ := ih h
      exact ⟨mid, bs, cs, rfl, .skip hp hd hus, hvs⟩
    | act hp hd h =>
      obtain ⟨mid, bs, cs, rfl, hus, hvs⟩ := ih h
      exact ⟨mid, _ :: bs, cs, rfl, .act hp hd hus, hvs⟩

/-- Wanted changes that come last and do not undo each other are done at the end. -/
theorem Makes.settled_last (h : Makes s (us ++ vs) as s')
    (hvs : ∀ v ∈ vs, ∀ w ∈ vs, ¬v.2.Opposes w.2) : ∀ w ∈ vs, Settled s' w := by
  obtain ⟨mid, bs, cs, -, -, hlast⟩ := h.split
  refine hlast.settled_all (List.pairwise_of_forall_mem_list fun v hv w hw hop => ?_)
  exact absurd hop (hvs v hv w hw)

/-- What a conversion wants is done at the end, but for the taking apart of bonds on the way to the
routed topology. -/
theorem Makes.lasts (h : Makes s (conversion s t ++ attachments n) as s') (hw : w ∈ conversion s t)
    (ht : t = .layer3 → w.2 ≠ .disbond) : Settled s' w := by
  have hattach {ws : List (String × PortChange)} (hws : ∀ v ∈ ws, ∀ w ∈ ws, ¬v.2.Opposes w.2) :
      ∀ v ∈ ws ++ attachments n, ∀ w ∈ ws ++ attachments n, ¬v.2.Opposes w.2 := by
    intro v hv w hw
    rcases List.mem_append.1 hv with hv | hv
    · rcases List.mem_append.1 hw with hw | hw
      · exact hws v hv w hw
      · exact (not_opposes_attachments hw).1
    · exact (not_opposes_attachments hv).2
  by_cases hlayer3 : t = .layer3
  · subst hlayer3
    -- after the bonds were taken apart, nothing is undone any more
    rw [conversion, List.append_assoc] at h
    refine h.settled_last (hattach fun v hv w hw => ?_) w (List.mem_append_left _ ?_)
    · simp only [List.mem_cons, List.mem_map] at hv hw
      grind [Opposes]
    · refine (List.mem_append.1 hw).resolve_left fun hw => ht rfl ?_
      obtain ⟨x, -, rfl⟩ := List.mem_map.1 hw
      rfl
  · have hwhole : Makes s ([] ++ (conversion s t ++ attachments n)) as s' := h
    exact hwhole.settled_last (hattach (not_opposes_conversion hlayer3)) w (List.mem_append_left _ hw)

/-! ## What is left alone -/

/-- A run that only takes physical ports out of their bonds and attaches virtual networks leaves the
other ports alone. -/
theorem Makes.leaves {names : List String} (h : Makes s ws as s')
    (hws : ∀ w ∈ ws, (w.2 = .disbond ∧ w.1 ∈ names) ∨ ∃ vnid, w.2 = .attach vnid)
    (hnames : ∀ p ∈ s, p.name ∈ names → p.isBond = false) :
    layoutBeside names s' = layoutBeside names s := by
  have hphysical {qs : List PortState} {p : PortState}
      (hqs : qs.map (fun p => (p.name, p.isBond)) = s.map fun p => (p.name, p.isBond))
      (hp : p ∈ qs) (hname : p.name ∈ names) : p.isBond = false := by
    have hmem : (p.name, p.isBond) ∈ s.map fun p => (p.name, p.isBond) := hqs ▸ List.mem_map_of_mem hp
    obtain ⟨q, hq, he⟩ := List.mem_map.1 hmem
    obtain ⟨hqname, hqbond⟩ := Prod.mk.inj he
    exact hqbond ▸ hnames q hq (hqname ▸ hname)
  refine (h.keeps (P := fun qs => qs.map (fun p => (p.name, p.isBond)) = s.map _ ∧
    layoutBeside names qs = layoutBeside names s) ⟨rfl, rfl⟩ ?_).2
  rintro ⟨c, id, name⟩ ha p qs hp ⟨hshape, hqs⟩
  obtain rfl : p.name = name := by simpa using List.find?_some hp
  refine ⟨(map_shape_apply c p qs).trans hshape, Eq.trans ?_ hqs⟩
  rcases hws _ (h.wanted ha) with ⟨hc, hname⟩ | ⟨vnid, hc⟩
  · obtain rfl : c = .disbond := hc
    exact layoutBeside_disbond (hphysical hshape (List.mem_of_find?_eq_some hp) hname) hname qs
  · obtain rfl : c = .attach vnid := hc
    exact layoutBeside_modifyFirst (g := fun q => { q with vlans := q.vlans ++ [vnid] })
      (fun _ => rfl) names _ qs

/-! ## What is reached -/

theorem mem_names (h : Makes s ws as s') (hq : q ∈ s') : q.name ∈ names s q.isBond := by
  have hnames : names s' q.isBond = names s q.isBond := by rw [names_eq, names_eq, h.shape]
  rw [← hnames]
  exact List.mem_map_of_mem (List.mem_filter.2 ⟨hq, by simp⟩)

/-- A conversion that was carried out leads to its topology. -/
theorem Makes.reached (h : Makes s (conversion s t ++ attachments n) as s')
    (hs : (s.map (·.name)).Nodup) (hsplit : ∀ p ∈ s, p.name ∈ splitPorts → p.isBond = false) :
    t.Reached s s' := by
  have hs' : (s'.map (·.name)).Nodup := h.map_name ▸ hs
  -- what is wanted of a port by its name is done on the port
  have hdone {q : PortState} {c : PortChange} (hq : q ∈ s') (hw : (q.name, c) ∈ conversion s t)
      (ht : t = .layer3 → c ≠ .disbond) : c.isDone q := (h.lasts hw ht).isDone hs' hq
  have hprimary {c : PortChange} (hw : (primaryBond, c) ∈ conversion s t)
      (ht : t = .layer3 → c ≠ .disbond) : ∃ q ∈ s', q.name = primaryBond ∧ c.isDone q := by
    obtain ⟨q, hq, hd⟩ := h.lasts hw ht
    exact ⟨q, List.mem_of_find?_eq_some hq, by simpa using List.find?_some hq, hd⟩
  have hbonded {q : PortState} (hd : isDone .bond q) : q.bonded = true := hd
  have hfree {q : PortState} (hd : isDone .disbond q) : q.bonded = false := by
    simpa [isDone] using hd
  cases t with
  | layer3 =>
    refine ⟨?_, fun q hq hphysical => hbonded (hdone hq ?_ (by decide))⟩
    · obtain ⟨q, hq, hname, hd⟩ := hprimary (c := .toLayer3)
        (List.mem_append_right _ List.mem_cons_self) (by decide)
      exact ⟨q, hq, hname, isRouted_of_isDone hd⟩
    · have hmem := List.mem_map_of_mem (f := (·, bond)) (hphysical ▸ mem_names h hq)
      exact List.mem_append_right _ (List.mem_cons_of_mem _ hmem)
  | layer2Individual =>
    refine ⟨?_, fun q hq hphysical => hfree (hdone hq ?_ (by decide))⟩
    · obtain ⟨q, hq, hname, hd⟩ := hprimary (c := .toLayer2) List.mem_cons_self (by decide)
      exact ⟨q, hq, hname, isSwitched_of_isDone hd⟩
    · have hmem := List.mem_map_of_mem (f := (·, disbond)) (hphysical ▸ mem_names h hq)
      exact List.mem_cons_of_mem _ hmem
  | layer2Bonded =>
    refine ⟨fun q hq hbond => isSwitched_of_isDone (hdone hq ?_ (by decide)),
      fun q hq hphysical => hbonded (hdone hq ?_ (by decide))⟩
    · have hmem := List.mem_map_of_mem (f := (·, toLayer2)) (hbond ▸ mem_names h hq)
      exact List.mem_append_left _ hmem
    · have hmem := List.mem_map_of_mem (f := (·, bond)) (hphysical ▸ mem_names h hq)
      exact List.mem_append_right _ hmem
  | hybrid =>
    refine ⟨fun q hq hname => hfree (hdone hq (List.mem_map.2 ⟨q.name, ?_, rfl⟩) (by decide)),
      h.leaves (fun w hw => ?_) hsplit⟩
    · have hthere : q.name ∈ s.map (·.name) := h.map_name ▸ List.mem_map_of_mem hq
      obtain ⟨p, hp, he⟩ := List.mem_map.1 hthere
      exact List.mem_filter.2 ⟨hname, List.any_eq_true.2 ⟨p, hp, decide_eq_true he⟩⟩
    · rcases List.mem_append.1 hw with hw | hw
      · obtain ⟨name, hname, rfl⟩ := List.mem_map.1 hw
        exact .inl ⟨rfl, (List.mem_filter.1 hname).1⟩
      · exact .inr (mem_attachments hw)
  | hybridBonded =>
    have hall : layoutBeside [] s' = layoutBeside [] s :=
      h.leaves (fun w hw => .inr (mem_attachments hw)) (by simp)
    simp only [layoutBeside, List.not_mem_nil, not_false_eq_true, decide_true, List.filter_true] at hall
    exact hall

/-- For a device with distinct port names of which `eth1` and `eth3` are physical ports, planning
fails exactly if the topology is unknown or a port is absent that is needed. The operations of a plan
each change the ports, and if the device was not reported to have the topology already, they end with
the ports laid out as it asks. -/
theorem reaches_target (hd : (d.ports.map (·.name)).Nodup)
    (hsplit : ∀ p ∈ d.ports, p.name = "eth1" ∨ p.name = "eth3" → p.isBond = false) :
    ((∃ f, make d n = .error f) ↔ Impossible d n) ∧
      ∀ as, make d n = .ok as →
        (∀ k < as.length, after (d.ports.map .ofPort) (as.take (k + 1)) ≠
          after (d.ports.map .ofPort) (as.take k)) ∧
        ∀ t, Topology.ofName? n.topology = some t → d.networkType ≠ some t.name →
          t.Reached (d.ports.map .ofPort) (after (d.ports.map .ofPort) as) := by
  refine ⟨exists_error_iff, fun as h => ?_⟩
  obtain ⟨t, ht, s', hmakes⟩ := make_eq_ok_iff.1 h
  refine ⟨fun k hk => hmakes.progress hk, fun t' ht' hne => ?_⟩
  obtain rfl : t = t' := Option.some.inj (ht.symm.trans ht')
  rw [wanted, if_neg hne] at hmakes
  have hnames : ((d.ports.map PortState.ofPort).map (·.name)).Nodup := by
    rw [List.map_map]
    exact hd
  rw [← hmakes.eq_after]
  refine hmakes.reached hnames fun p hp hname => ?_
  obtain ⟨q, hq, rfl⟩ := List.mem_map.1 hp
  exact hsplit q hq (by simpa [splitPorts, PortState.ofPort] using hname)

/-- A switched machine comes to be routed. -/
theorem reaches_routed :
    ((Device.switched true none).ports.map (·.name)).Nodup ∧
      (∀ p ∈ (Device.switched true none).ports, p.name = "eth1" ∨ p.name = "eth3" → p.isBond = false) ∧
      make (.switched true none) { topology := "layer3" } = .ok Device.routing ∧
      Topology.layer3.Reached ((Device.switched true none).ports.map .ofPort)
        (after ((Device.switched true none).ports.map .ofPort) Device.routing) := by
  have hd : ((Device.switched true none).ports.map (·.name)).Nodup := by decide
  have hsplit : ∀ p ∈ (Device.switched true none).ports,
      p.name = "eth1" ∨ p.name = "eth3" → p.isBond = false := by decide
  have h : make (.switched true none) { topology := "layer3" } = .ok Device.routing := rfl
  exact ⟨hd, hsplit, h, ((reaches_target hd hsplit).2 _ h).2 .layer3 (by decide) (by decide)⟩

end Plan

end BareMetal
