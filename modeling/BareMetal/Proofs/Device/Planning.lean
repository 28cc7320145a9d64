import BareMetal.Device.Topology
import Mathlib.Data.List.Forall2

/-!
# Plans as runs

What a change makes of the ports of a device (`PortChange.Turns`), and plans as runs over a list of
wanted changes: one that is done already is passed over, any other becomes an operation
(`Plan.Makes`). Planning is such a run (`Plan.make_eq_ok_iff`), and a run can be cut after any
number of its operations (`Plan.Makes.cut`).
-/

namespace BareMetal

variable {c c' : PortChange} {p q : PortState} {ports ports' : List PortState} {n : String}
  {w : String × PortChange} {ws vs : List (String × PortChange)} {as bs : List PortAction}

namespace PortChange

/-! ## What a change makes of a port -/

/-- What the change of some port can make of the first port. -/
structure Turns (c : PortChange) (p q : PortState) : Prop where
  id : q.id = p.id
  name : q.name = p.name
  isBond : q.isBond = p.isBond
  freed : p.bonded = true → q.bonded = true ∨ c = .disbond
  joined : q.bonded = true → p.bonded = true ∨ c = .bond
  mode : q.mode = p.mode ∨ (c = .toLayer2 ∧ isDone .toLayer2 q) ∨ (c = .toLayer3 ∧ isDone .toLayer3 q)
  vlans : p.vlans ⊆ q.vlans

theorem Turns.refl (c : PortChange) (p : PortState) : c.Turns p p :=
  ⟨rfl, rfl, rfl, .inl, .inl, .inl rfl, List.Subset.refl _⟩

theorem forall₂_refl (c : PortChange) (ports : List PortState) : List.Forall₂ c.Turns ports ports :=
  List.forall₂_same.2 fun p _ => .refl c p

theorem forall₂_modifyFirst {f : PortState → PortState} (hf : ∀ p, c.Turns p (f p)) (n : String)
    (ports : List PortState) : List.Forall₂ c.Turns ports (modifyFirst n f ports) := by
  induction ports with
  | nil => exact .nil
  | cons p rest ih =>
    unfold modifyFirst
    split
    · exact .cons (hf p) (forall₂_refl c rest)
    · exact .cons (.refl c p) ih

theorem isDone_toLayer2 (p : PortState) (bonded : Bool) :
    isDone .toLayer2 { p with mode := some (if bonded then "layer2-bonded" else "layer2-individual") } := by
  cases bonded <;> simp [isDone]

/-- A change does to every port what it can do to one. -/
theorem forall₂_apply (c : PortChange) (p : PortState) (ports : List PortState) :
    List.Forall₂ c.Turns ports (c.apply p ports) := by
  cases c with
  | disbond =>
    refine List.forall₂_map_right_iff.2 (List.forall₂_same.2 fun q _ => ?_)
    split
    · exact ⟨rfl, rfl, rfl, fun _ => .inr rfl, nofun, .inl rfl, List.Subset.refl _⟩
    · exact .refl _ q
  | bond =>
    have hfirst : List.Forall₂ bond.Turns ports (modifyFirst p.name ({ · with bonded := true }) ports) :=
      forall₂_modifyFirst (f := ({ · with bonded := true })) (fun q => ⟨rfl, rfl, rfl,
        fun _ => .inl rfl, fun _ => .inr rfl, .inl rfl, List.Subset.refl _⟩) _ _
    refine List.forall₂_map_right_iff.2 (hfirst.imp fun q r h => ?_)
    · split
      · exact ⟨h.id, h.name, h.isBond, fun _ => .inl rfl, fun _ => .inr rfl, h.mode, h.vlans⟩
      · exact h
  | toLayer2 =>
    refine forall₂_modifyFirst (fun q => ?_) _ _
    exact ⟨rfl, rfl, rfl, .inl, .inl, .inr (.inl ⟨rfl, isDone_toLayer2 q p.bonded⟩), List.Subset.refl _⟩
  | toLayer3 =>
    refine forall₂_modifyFirst (fun q => ?_) _ _
    exact ⟨rfl, rfl, rfl, .inl, .inl, .inr (.inr ⟨rfl, by simp [isDone]⟩), List.Subset.refl _⟩
  | attach vnid =>
    refine forall₂_modifyFirst (fun q => ?_) _ _
    exact ⟨rfl, rfl, rfl, .inl, .inl, .inl rfl, List.subset_append_left _ _⟩

/-- Names and kinds of ports stay. -/
theorem map_shape_apply (c : PortChange) (p : PortState) (ports : List PortState) :
    (c.apply p ports).map (fun p => (p.name, p.isBond)) = ports.map fun p => (p.name, p.isBond) := by
  refine (List.forall₂_eq_eq_eq ▸ List.forall₂_map_left_iff.2 (List.forall₂_map_right_iff.2 ?_)).symm
  exact (forall₂_apply c p ports).imp fun q r ht => Prod.ext ht.name.symm ht.isBond.symm

theorem exists_find?_of_forall₂ (h : List.Forall₂ c.Turns ports ports')
    (hp : ports.find? (·.name = n) = some p) : ∃ q, ports'.find? (·.name = n) = some q ∧ c.Turns p q := by
  induction h with
  | nil => cases hp
  | @cons a b as bs hab _ ih =>
    by_cases ha : a.name = n
    · have hb : b.name = n := hab.name.trans ha
      obtain rfl : a = p := by simpa [ha] using hp
      exact ⟨b, by simp [hb], hab⟩
    · have hb : b.name ≠ n := fun hb => ha (hab.name.symm.trans hb)
      obtain ⟨q, hq, ht⟩ := ih (by simpa [ha] using hp)
      exact ⟨q, by simpa [hb] using hq, ht⟩

theorem exists_mem_of_forall₂ (h : List.Forall₂ c.Turns ports ports') (hq : q ∈ ports') :
    ∃ p ∈ ports, c.Turns p q := by
  induction h with
  | nil => cases hq
  | cons hab _ ih =>
    rcases List.mem_cons.1 hq with rfl | hq
    · exact ⟨_, List.mem_cons_self, hab⟩
    · obtain ⟨p, hp, ht⟩ := ih hq
      exact ⟨p, List.mem_cons_of_mem _ hp, ht⟩

/-! ## Changes that undo each other -/

/-- The one change can undo the other. -/
def Opposes : PortChange → PortChange → Prop
  | disbond, bond | bond, disbond | toLayer2, toLayer3 | toLayer3, toLayer2 => True
  | _, _ => False

theorem Turns.isDone (h : c.Turns p q) (hc : ¬c'.Opposes c) (hp : c'.isDone p) : c'.isDone q := by
  cases c' with
  | disbond =>
    have hbonded : p.bonded = false := by simpa [PortChange.isDone] using hp
    have hq : q.bonded ≠ true := fun hq => by
      rcases h.joined hq with hp | rfl
      · simp [hbonded] at hp
      · exact hc trivial
    simpa [PortChange.isDone] using hq
  | bond => exact (h.freed hp).resolve_right fun hd => hc (hd ▸ trivial)
  | toLayer2 =>
    rcases h.mode with hm | ⟨-, hq⟩ | ⟨rfl, -⟩
    · rwa [PortChange.isDone, hm]
    · exact hq
    · exact absurd trivial hc
  | toLayer3 =>
    rcases h.mode with hm | ⟨rfl, -⟩ | ⟨-, hq⟩
    · rwa [PortChange.isDone, hm]
    · exact absurd trivial hc
    · exact hq
  | attach vnid =>
    have hmem : vnid ∈ p.vlans := by simpa [PortChange.isDone] using hp
    simpa [PortChange.isDone] using h.vlans hmem

/-- The change is done on the first port with the name. -/
def Settled (ports : List PortState) (w : String × PortChange) : Prop :=
  ∃ p, ports.find? (·.name = w.1) = some p ∧ w.2.isDone p

theorem Settled.apply (h : Settled ports w) (hc : ¬w.2.Opposes c) : Settled (c.apply p ports) w := by
  obtain ⟨q, hq, hdone⟩ := h
  obtain ⟨r, hr, ht⟩ := exists_find?_of_forall₂ (forall₂_apply c p ports) hq
  exact ⟨r, hr, ht.isDone hc hdone⟩

theorem find?_modifyFirst {f : PortState → PortState} (hf : ∀ q, (f q).name = q.name)
    (hp : ports.find? (·.name = n) = some p) :
    (modifyFirst n f ports).find? (·.name = n) = some (f p) := by
  induction ports with
  | nil => cases hp
  | cons q rest ih =>
    unfold modifyFirst
    by_cases hq : q.name = n
    · obtain rfl : q = p := by simpa [hq] using hp
      simp [hq, hf]
    · have hrest : rest.find? (·.name = n) = some p := by simpa [hq] using hp
      simpa [hq] using ih hrest

theorem find?_map {f : PortState → PortState} (hf : ∀ q, (f q).name = q.name)
    (hp : ports.find? (·.name = n) = some p) : (ports.map f).find? (·.name = n) = some (f p) := by
  rw [List.find?_map]
  have hcomp : ((fun q : PortState => decide (q.name = n)) ∘ f) = fun q => decide (q.name = n) := by
    funext q
    simp [hf]
  rw [hcomp, hp, Option.map_some]

/-- A change is done once it is made. -/
theorem settled_apply (c : PortChange) (hp : ports.find? (·.name = n) = some p) :
    Settled (c.apply p ports) (n, c) := by
  obtain rfl : p.name = n := by simpa using List.find?_some hp
  cases c with
  | disbond =>
    refine ⟨_, find?_map (fun q => ?_) hp, by simp [isDone]⟩
    split <;> rfl
  | bond =>
    refine ⟨_, find?_map (fun q => ?_) (find?_modifyFirst (fun _ => rfl) hp), ?_⟩
    · split <;> rfl
    · dsimp only
      split <;> rfl
  | toLayer2 => exact ⟨_, find?_modifyFirst (fun _ => rfl) hp, isDone_toLayer2 p p.bonded⟩
  | toLayer3 => exact ⟨_, find?_modifyFirst (fun _ => rfl) hp, by simp [isDone]⟩
  | attach vnid => exact ⟨_, find?_modifyFirst (fun _ => rfl) hp, by simp [isDone]⟩

end PortChange

/-! ## Operations -/

/-- The ports after an operation. -/
def PortAction.effect (ports : List PortState) (a : PortAction) : List PortState :=
  match ports.find? (·.name = a.portName) with
  | some p => a.change.apply p ports
  | none => ports

namespace Plan

open PortChange

/-- The ports after a number of operations. -/
def after (ports : List PortState) (as : List PortAction) : List PortState :=
  as.foldl PortAction.effect ports

/-- The wanted changes, made from the first ports, take the operations and lead to the second. -/
inductive Makes : List PortState → List (String × PortChange) → List PortAction → List PortState → Prop
  | nil (s : List PortState) : Makes s [] [] s
  | skip {s s' : List PortState} {n : String} {c : PortChange} {p : PortState}
    {ws : List (String × PortChange)} {as : List PortAction} :
    s.find? (·.name = n) = some p → c.isDone p → Makes s ws as s' → Makes s ((n, c) :: ws) as s'
  | act {s s' : List PortState} {n : String} {c : PortChange} {p : PortState}
    {ws : List (String × PortChange)} {as : List PortAction} :
    s.find? (·.name = n) = some p → ¬c.isDone p → Makes (c.apply p s) ws as s' →
    Makes s ((n, c) :: ws) (⟨c, p.id, p.name⟩ :: as) s'

theorem not_makes_cons (hp : ports.find? (·.name = n) = none) :
    ¬Makes ports ((n, c) :: ws) as ports' := by
  intro h
  cases h with
  | skip hq | act hq => simp [hp] at hq

theorem makes_cons_iff (hp : ports.find? (·.name = n) = some p) :
    Makes ports ((n, c) :: ws) as ports' ↔ if c.isDone p then Makes ports ws as ports'
      else ∃ rest, as = ⟨c, p.id, p.name⟩ :: rest ∧ Makes (c.apply p ports) ws rest ports' := by
  constructor
  · intro h
    cases h with
    | skip hq hdone h =>
      obtain rfl : p = _ := Option.some.inj (hp.symm.trans hq)
      rwa [if_pos hdone]
    | act hq hnot h =>
      obtain rfl : p = _ := Option.some.inj (hp.symm.trans hq)
      rw [if_neg hnot]
      exact ⟨_, rfl, h⟩
  · split
    · next hdone => exact .skip hp hdone
    · next hnot =>
      rintro ⟨rest, rfl, h⟩
      exact .act hp hnot h

theorem foldlM_step_eq_ok_iff (device : String) {plan r : Plan} :
    ws.foldlM (step device) plan = .ok r ↔
      ∃ as, r.actions = plan.actions ++ as ∧ Makes plan.ports ws as r.ports := by
  induction ws generalizing plan with
  | nil =>
    rw [List.foldlM_nil]
    refine ⟨fun h => ?_, fun ⟨as, has, h⟩ => ?_⟩
    · cases h
      exact ⟨[], (List.append_nil _).symm, .nil _⟩
    · cases r
      cases h
      obtain rfl := has
      rw [List.append_nil]
      rfl
  | cons w ws ih =>
    obtain ⟨n, c⟩ := w
    rw [List.foldlM_cons]
    cases hp : plan.ports.find? (·.name = n) with
    | none =>
      have hstep : step device plan (n, c) = .error (.missingPort device n) := by simp [step, hp]
      rw [hstep]
      exact ⟨nofun, fun ⟨as, _, h⟩ => absurd h (not_makes_cons hp)⟩
    | some p =>
      by_cases hdone : c.isDone p
      · have hstep : step device plan (n, c) = .ok plan := by simp [step, hp, hdone]
        simp only [makes_cons_iff hp, if_pos hdone, hstep]
        exact ih
      · have hstep : step device plan (n, c) =
            .ok ⟨c.apply p plan.ports, plan.actions ++ [⟨c, p.id, p.name⟩]⟩ := by
          simp [step, hp, hdone]
        simp only [makes_cons_iff hp, if_neg hdone, hstep]
        refine ih.trans ⟨fun ⟨as, has, h⟩ => ⟨_, ?_, as, rfl, h⟩, fun ⟨as, has, rest, hrest, h⟩ => ⟨rest, ?_, h⟩⟩
        · rw [has, List.append_assoc]
          rfl
        · rw [has, hrest, List.append_assoc]
          rfl

namespace Makes

theorem append {ports'' : List PortState} (h : Makes ports ws as ports')
    (h' : Makes ports' vs bs ports'') : Makes ports (ws ++ vs) (as ++ bs) ports'' := by
  induction h with
  | nil => exact h'
  | skip hp hd _ ih => exact .skip hp hd (ih h')
  | act hp hd _ ih => exact .act hp hd (ih h')

/-- A run can be cut after any number of operations. -/
theorem cut (h : Makes ports ws as ports') (k : Nat) : ∃ us vs mid, ws = us ++ vs ∧
    Makes ports us (as.take k) mid ∧ Makes mid vs (as.drop k) ports' := by
  induction h generalizing k with
  | nil s => exact ⟨[], [], s, rfl, by simpa using .nil s, by simpa using .nil s⟩
  | @skip ports ports' n c p ws as hp hd h ih =>
    cases k with
    | zero => exact ⟨[], _, _, rfl, .nil _, .skip hp hd h⟩
    | succ k =>
      obtain ⟨us, vs, mid, rfl, hus, hvs⟩ := ih (k + 1)
      exact ⟨_ :: us, vs, mid, rfl, .skip hp hd hus, hvs⟩
  | @act ports ports' n c p ws as hp hd h ih =>
    cases k with
    | zero => exact ⟨[], _, _, rfl, .nil _, .act hp hd h⟩
    | succ k =>
      obtain ⟨us, vs, mid, rfl, hus, hvs⟩ := ih k
      exact ⟨_ :: us, vs, mid, rfl, .act hp hd hus, hvs⟩

theorem eq_after (h : Makes ports ws as ports') : ports' = after ports as := by
  induction h with
  | nil => rfl
  | skip _ _ _ ih => exact ih
  | @act ports ports' n c p ws as hp _ _ ih =>
    obtain rfl : p.name = n := by simpa using List.find?_some hp
    rw [ih, after, after, List.foldl_cons, PortAction.effect]
    dsimp only
    rw [hp]

/-- Every operation is one of the wanted changes. -/
theorem wanted (h : Makes ports ws as ports') {a : PortAction} (ha : a ∈ as) :
    (a.portName, a.change) ∈ ws := by
  induction h with
  | nil => cases ha
  | skip _ _ _ ih => exact List.mem_cons_of_mem _ (ih ha)
  | act hp _ _ ih =>
    obtain rfl : _ = _ := by simpa using List.find?_some hp
    rcases List.mem_cons.1 ha with rfl | ha
    · exact List.mem_cons_self
    · exact List.mem_cons_of_mem _ (ih ha)

/-- What holds of the ports and is kept by every change that the run makes of the port it is for
holds at its end. -/
theorem keeps {P : List PortState → Prop} (h : Makes ports ws as ports') (hP : P ports)
    (hkeep : ∀ a ∈ as, ∀ p ports, ports.find? (·.name = a.portName) = some p → P ports →
      P (a.change.apply p ports)) : P ports' := by
  induction h with
  | nil => exact hP
  | skip _ _ _ ih => exact ih hP hkeep
  | act hp _ _ ih =>
    obtain rfl : _ = _ := by simpa using List.find?_some hp
    refine ih (hkeep _ List.mem_cons_self _ _ hp hP) fun a ha => ?_
    exact hkeep a (List.mem_cons_of_mem _ ha)

theorem settled (h : Makes ports ws as ports') (hw : Settled ports w)
    (has : ∀ a ∈ as, ¬w.2.Opposes a.change) : Settled ports' w :=
  h.keeps (P := (Settled · w)) hw fun a ha _ _ _ hw => Settled.apply hw (has a ha)

/-- Names and kinds of ports never change. -/
theorem shape (h : Makes ports ws as ports') :
    ports'.map (fun p => (p.name, p.isBond)) = ports.map fun p => (p.name, p.isBond) :=
  h.keeps (P := fun qs => qs.map (fun p => (p.name, p.isBond)) = ports.map _) rfl
    fun _ _ _ _ _ hqs => (map_shape_apply _ _ _).trans hqs

theorem map_name (h : Makes ports ws as ports') : ports'.map (·.name) = ports.map (·.name) := by
  have hfst := congrArg (List.map Prod.fst) h.shape
  simpa only [List.map_map, Function.comp_def] using hfst

theorem exists_bond (h : Makes ports ws as ports') (hbond : ∃ p ∈ ports, p.isBond) :
    ∃ p ∈ ports', p.isBond := by
  obtain ⟨p, hp, hbond⟩ := hbond
  have hmem : (p.name, p.isBond) ∈ ports'.map fun p => (p.name, p.isBond) :=
    h.shape ▸ List.mem_map_of_mem hp
  obtain ⟨q, hq, he⟩ := List.mem_map.1 hmem
  exact ⟨q, hq, (congrArg Prod.snd he).trans hbond⟩

/-- Where every wanted change is done, nothing is to be made. -/
theorem of_settled (h : ∀ w ∈ ws, Settled ports w) : Makes ports ws [] ports := by
  induction ws with
  | nil => exact .nil _
  | cons w ws ih =>
    obtain ⟨p, hp, hd⟩ := h w List.mem_cons_self
    exact .skip hp hd (ih fun w hw => h w (List.mem_cons_of_mem _ hw))

end Makes

end Plan

end BareMetal
