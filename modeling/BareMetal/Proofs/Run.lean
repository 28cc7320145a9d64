import BareMetal.Program
import Mathlib.Logic.Relation

/-!
# Runs of programs

Programs meet an outside, which answers their calls and also moves by itself. `Program.Safe` says
that a program makes only permitted calls, whatever the outside answers and does in between. A run
(`Outside.Reaches`) makes programs one at a time, each of which may be dropped at any point, and
`Outside.Upholds` is the argument by which an invariant of the world, and with it the permission of
every call, holds along a run.
-/

open Relation

namespace BareMetal

/-- How a world answers calls, and how it moves by itself. -/
structure Outside (C : Type) (R : C → Type) (W : Type) where
  /-- The call, made in the first world, can be answered so and leave the second. -/
  answers : (c : C) → W → R c → W → Prop
  /-- The first world can turn into the second by itself. -/
  drifts : W → W → Prop

variable {C D : Type} {R : C → Type} {T : D → Type} {W α β : Type}

/-- Whatever the world does by itself, the assertion stays true. -/
def Outside.Keeps (o : Outside C R W) (P : W → Prop) : Prop :=
  ∀ ⦃w w'⦄, o.drifts w w' → P w → P w'

theorem Outside.Keeps.always {o : Outside C R W} {P : W → Prop} (h : o.Keeps P) {w w' : W}
    (hd : ReflTransGen o.drifts w w') (hw : P w) : P w' := by
  induction hd with
  | refl => exact hw
  | tail _ hs ih => exact h hs ih

theorem Outside.Keeps.and {o : Outside C R W} {P Q : W → Prop} (hP : o.Keeps P) (hQ : o.Keeps Q) :
    o.Keeps fun w => P w ∧ Q w :=
  fun _ _ hd h => ⟨hP hd h.1, hQ hd h.2⟩

theorem Outside.keeps_true (o : Outside C R W) : o.Keeps fun _ => True := fun _ _ _ h => h

/-! ## Safe programs -/

namespace Program

/-- Started in the world, the program only makes calls when they are permitted, and what it ends in
satisfies `Q`. The world may move by itself before every call. -/
def Safe (o : Outside C R W) (permit : C → W → Prop) (Q : α → W → Prop) : Program C R α → W → Prop
  | .done a, w => Q a w
  | .call c next, w => ∀ w₁, ReflTransGen o.drifts w w₁ →
      permit c w₁ ∧ ∀ r w₂, o.answers c w₁ r w₂ → (next r).Safe o permit Q w₂

variable {o : Outside C R W} {permit permit' : C → W → Prop} {Q Q' : α → W → Prop}
  {p : Program C R α} {w w' : W}

theorem Safe.mono (h : p.Safe o permit Q w) (hp : ∀ c w, permit c w → permit' c w)
    (hQ : ∀ a w, Q a w → Q' a w) : p.Safe o permit' Q' w := by
  induction p generalizing w with
  | done a => exact hQ a w h
  | call c next ih =>
    intro w₁ hd
    obtain ⟨hc, hnext⟩ := h w₁ hd
    exact ⟨hp c w₁ hc, fun r w₂ ha => ih r (hnext r w₂ ha)⟩

theorem Safe.bind {f : α → Program C R β} {Q : β → W → Prop}
    (h : p.Safe o permit (fun a w => (f a).Safe o permit Q w) w) : (p >>= f).Safe o permit Q w := by
  induction p generalizing w with
  | done a => exact h
  | call c next ih =>
    intro w₁ hd
    obtain ⟨hc, hnext⟩ := h w₁ hd
    exact ⟨hc, fun r w₂ ha => ih r (hnext r w₂ ha)⟩

theorem Safe.and (h : p.Safe o permit Q w) (h' : p.Safe o permit' Q' w) :
    p.Safe o (fun c w => permit c w ∧ permit' c w) (fun a w => Q a w ∧ Q' a w) w := by
  induction p generalizing w with
  | done a => exact ⟨h, h'⟩
  | call c next ih =>
    intro w₁ hd
    obtain ⟨hc, hnext⟩ := h w₁ hd
    obtain ⟨hc', hnext'⟩ := h' w₁ hd
    exact ⟨⟨hc, hc'⟩, fun r w₂ ha => ih r (hnext r w₂ ha) (hnext' r w₂ ha)⟩

/-- A safe program stays safe while the world moves by itself, if its result needs no world. -/
theorem Safe.drift {E : α → Prop} (h : p.Safe o permit (fun a _ => E a) w) (hd : o.drifts w w') :
    p.Safe o permit (fun a _ => E a) w' := by
  cases p with
  | done a => exact h
  | call c next => exact fun w₁ hd' => h w₁ (.head hd hd')

theorem Safe.permitted {c : C} {next : R c → Program C R α}
    (h : (Program.call c next).Safe o permit Q w) : permit c w :=
  (h w .refl).1

theorem Safe.answered {c : C} {next : R c → Program C R α} {r : R c}
    (h : (Program.call c next).Safe o permit Q w) (ha : o.answers c w r w') :
    (next r).Safe o permit Q w' :=
  (h w .refl).2 r w' ha

theorem safe_perform {c : C} {P : W → Prop} {Q : R c → W → Prop} (hP : o.Keeps P)
    (hc : ∀ w, P w → permit c w) (ha : ∀ w r w', P w → o.answers c w r w' → Q r w') (hw : P w) :
    (perform c : Program C R (R c)).Safe o permit Q w := by
  intro w₁ hd
  have h₁ := hP.always hd hw
  exact ⟨hc w₁ h₁, fun r w₂ hr => ha w₁ r w₂ h₁ hr⟩

/-! ## Programs over the calls of another layer -/

theorem bind_lower (layer : (c : C) → Program D T (R c)) (f : α → Program C R β) :
    (p >>= f).lower layer = p.lower layer >>= fun a => (f a).lower layer := by
  induction p with
  | done a => rfl
  | call c next ih =>
    show (layer c >>= fun r => (next r >>= f).lower layer) = _
    rw [funext ih]
    exact (Program.bind_assoc' _ _ _).symm

theorem lower_perform (p : Program C R α) : p.lower perform = p := by
  induction p with
  | done a => rfl
  | call c next ih => exact congrArg (Program.call c) (funext ih)

section Layers

variable {V : Type} {o' : Outside D T V} {permit' : D → V → Prop} {layer : (c : C) → Program D T (R c)}
  {view : V → W}

/-- A program whose calls are carried out by another layer is safe there if it is safe in what is
seen of the world, and each call, as far as it is permitted, is carried out as it is seen: after
moves of the world alone, the call is answered at once. -/
theorem Safe.lower
    (hlayer : ∀ c v, (∀ w, ReflTransGen o.drifts (view v) w → permit c w) → (layer c).Safe o' permit'
      (fun r v' => ∃ w, ReflTransGen o.drifts (view v) w ∧ o.answers c w r (view v')) v)
    {v : V} (h : p.Safe o permit Q (view v)) :
    (p.lower layer).Safe o' permit' (fun a v => Q a (view v)) v := by
  induction p generalizing v with
  | done a => exact h
  | call c next ih =>
    refine Safe.bind ((hlayer c v fun w hd => (h w hd).1).mono (fun _ _ h => h) ?_)
    rintro r v' ⟨w, hd, ha⟩
    exact ih r ((h w hd).2 r (view v') ha)

/-- A call that is carried out by one call, whose answer is read in some way. -/
theorem safe_perform_seen {c : C} {d : D} (permit : C → W → Prop) (view : V → W) (out : T d → R c) {v : V}
    (hdrift : ∀ v v', o'.drifts v v' → o.drifts (view v) (view v'))
    (hpermit : ∀ v, permit c (view v) → permit' d v)
    (hanswer : ∀ v r v', o'.answers d v r v' → o.answers c (view v) (out r) (view v'))
    (h : ∀ w, ReflTransGen o.drifts (view v) w → permit c w) :
    (perform d : Program D T (T d)).Safe o' permit'
      (fun r v' => ∃ w, ReflTransGen o.drifts (view v) w ∧ o.answers c w (out r) (view v')) v := by
  intro v₁ hd
  have hseen : ReflTransGen o.drifts (view v) (view v₁) := hd.lift view hdrift
  exact ⟨hpermit v₁ (h _ hseen), fun r v₂ ha => ⟨view v₁, hseen, hanswer v₁ r v₂ ha⟩⟩

end Layers

/-! ## The calls in a program -/

/-- Every call in the program satisfies the assertion, whatever the calls before are answered with. -/
def Only (P : C → Prop) : Program C R α → Prop
  | .done _ => True
  | .call c next => P c ∧ ∀ r, (next r).Only P

section Only

variable {P : C → Prop} {P' : D → Prop}

theorem only_of_forall (h : ∀ c, P c) (p : Program C R α) : p.Only P := by
  induction p with
  | done => trivial
  | call c next ih => exact ⟨h c, ih⟩

theorem Only.bind {f : α → Program C R β} (h : p.Only P) (hf : ∀ a, (f a).Only P) : (p >>= f).Only P := by
  induction p with
  | done a => exact hf a
  | call c next ih => exact ⟨h.1, fun r => ih r (h.2 r)⟩

theorem Only.lower {layer : (c : C) → Program D T (R c)} (h : p.Only P)
    (hlayer : ∀ c, P c → (layer c).Only P') : (p.lower layer).Only P' := by
  induction p with
  | done => trivial
  | call c next ih => exact (hlayer c h.1).bind fun r => ih r (h.2 r)

/-- A program is safe if all its calls are permitted by an assertion that they keep. -/
theorem Only.safe {I : W → Prop} (h : p.Only P) (hI : o.Keeps I)
    (hc : ∀ c w, P c → I w → permit c w ∧ ∀ r w', o.answers c w r w' → I w') (hw : I w) :
    p.Safe o permit (fun _ => I) w := by
  induction p generalizing w with
  | done => exact hw
  | call c next ih =>
    intro w₁ hd
    obtain ⟨hpermit, hkeeps⟩ := hc c w₁ h.1 (hI.always hd hw)
    exact ⟨hpermit, fun r w₂ ha => ih r (h.2 r) (hkeeps r w₂ ha)⟩

end Only

/-! ## Following a program -/

/-- The call that a program makes first. -/
def first? : Program C R α → Option C
  | .done _ => none
  | .call c _ => some c

/-- What is left of a program when its first call is answered. -/
def rest (answer : (c : C) → R c) : Program C R α → Program C R α
  | .done a => .done a
  | .call c next => next (answer c)

theorem eq_call_of_first? {p : Program C R α} {c : C} (h : p.first? = some c) :
    ∃ next, p = .call c next ∧ ∀ answer, p.rest answer = next (answer c) := by
  cases p with
  | done => cases h
  | call =>
    cases h
    exact ⟨_, rfl, fun _ => rfl⟩

/-- Makes a number of calls, each answered by a function of the call and the world. -/
def follow (serve : (c : C) → W → R c × W) : Nat → Program C R α → W → Program C R α × W
  | n + 1, .call c next, w => follow serve n (next (serve c w).1) (serve c w).2
  | _, p, w => (p, w)

/-- Plays a program to its end, each call answered by a function of the call and the world. -/
def play (serve : (c : C) → W → R c × W) (p : Program C R α) : StateM W α := p.run serve

/-- The calls that are made when a program is played. -/
def calls (serve : (c : C) → W → R c × W) : Program C R α → W → List C
  | .done _, _ => []
  | .call c next, w => c :: calls serve (next (serve c w).1) (serve c w).2

end Program

/-- The outside that answers as the function says, and does not move by itself. -/
def Outside.serving (serve : (c : C) → W → R c × W) : Outside C R W where
  answers c w r w' := serve c w = (r, w')
  drifts _ _ := False

theorem Outside.keeps_serving {serve : (c : C) → W → R c × W} (P : W → Prop) :
    (Outside.serving serve).Keeps P := nofun

namespace Program

variable {serve : (c : C) → W → R c × W} {permit : C → W → Prop} {Q : α → W → Prop}
  {p : Program C R α} {w : W}

/-- What a safe program ends in when it is played satisfies the assertion. -/
theorem Safe.play (h : p.Safe (.serving serve) permit Q w) :
    Q (p.play serve w).1 (p.play serve w).2 := by
  induction p generalizing w with
  | done a => exact h
  | call c next ih => exact ih _ (h.answered rfl)

/-- A safe program makes only permitted calls when it is played. -/
theorem Safe.calls {P : C → Prop} (h : p.Safe (.serving serve) (fun c _ => P c) Q w) :
    ∀ c ∈ p.calls serve w, P c := by
  induction p generalizing w with
  | done a => nofun
  | call c next ih => exact List.forall_mem_cons.2 ⟨h.permitted, ih _ (h.answered rfl)⟩

end Program

/-! ## Runs -/

/-- A world, and the rest of the program that is being made. -/
structure Situation (C : Type) (R : C → Type) (W α : Type) where
  world : W
  running : Option (Program C R α) := none

/-- The running program is about to make the call. -/
def Situation.Sends (x : Situation C R W α) (c : C) : Prop :=
  ∃ next, x.running = some (.call c next)

theorem Situation.sends_of_first? {p : Program C R α} {c : C} {w : W} (h : p.first? = some c) :
    Situation.Sends ⟨w, some p⟩ c := by
  obtain ⟨next, rfl, -⟩ := Program.eq_call_of_first? h
  exact ⟨next, rfl⟩

namespace Outside

variable (o : Outside C R W) (begins : W → Program C R α → Prop)

/-- One step of a run. A program begins when none is running; it stops when it is done, and can be
dropped before that. -/
inductive Step : Situation C R W α → Situation C R W α → Prop
  | drift {w w' run} : o.drifts w w' → Step ⟨w, run⟩ ⟨w', run⟩
  | begin {w p} : begins w p → Step ⟨w, none⟩ ⟨w, some p⟩
  | call {w w' c next r} : o.answers c w r w' → Step ⟨w, some (.call c next)⟩ ⟨w', some (next r)⟩
  | stop {w p} : Step ⟨w, some p⟩ ⟨w, none⟩

/-- A run leads from the first situation to the second. -/
def Reaches : Situation C R W α → Situation C R W α → Prop := ReflTransGen (o.Step begins)

/-- The invariant holds along every run whose programs make only permitted calls: the world keeps
it by itself and over every permitted call, and where it holds only safe programs begin. -/
structure Upholds (permit : C → W → Prop) (I : W → Prop) : Prop where
  drift : o.Keeps I
  call : ∀ {c w r w'}, I w → permit c w → o.answers c w r w' → I w'
  begin : ∀ {w p}, I w → begins w p → p.Safe o permit (fun _ _ => True) w

variable {o begins} {permit : C → W → Prop} {I : W → Prop} {x y : Situation C R W α}

theorem Reaches.answer {p : Program C R α} {c : C} {answer : (c : C) → R c} {w w' : W}
    (h : o.Reaches begins x ⟨w, some p⟩) (hc : p.first? = some c)
    (ha : o.answers c w (answer c) w') : o.Reaches begins x ⟨w', some (p.rest answer)⟩ := by
  obtain ⟨next, rfl, hrest⟩ := Program.eq_call_of_first? hc
  rw [hrest]
  exact h.tail (.call ha)

/-- The outside, as far as it answers and moves in these ways. -/
def restrict (o : Outside C R W) (answers : (c : C) → W → R c → W → Prop) (drifts : W → W → Prop) :
    Outside C R W where
  answers c w r w' := o.answers c w r w' ∧ answers c w r w'
  drifts w w' := o.drifts w w' ∧ drifts w w'

theorem Reaches.of_restrict {answers : (c : C) → W → R c → W → Prop} {drifts : W → W → Prop}
    (h : (o.restrict answers drifts).Reaches begins x y) : o.Reaches begins x y := by
  refine ReflTransGen.mono (fun _ _ hs => ?_) _ _ h
  cases hs with
  | drift hd => exact .drift hd.1
  | begin hb => exact .begin hb
  | call ha => exact .call ha.1
  | stop => exact .stop

theorem Upholds.step (h : o.Upholds begins permit I) (hs : o.Step begins x y) (hI : I x.world)
    (hx : ∀ p, x.running = some p → p.Safe o permit (fun _ _ => True) x.world) :
    I y.world ∧ ∀ p, y.running = some p → p.Safe o permit (fun _ _ => True) y.world := by
  cases hs with
  | drift hd => exact ⟨h.drift hd hI, fun p hp => (hx p hp).drift hd⟩
  | begin hb => exact ⟨hI, fun p hp => Option.some.inj hp ▸ h.begin hI hb⟩
  | call ha =>
    have hsafe := hx _ rfl
    exact ⟨h.call hI hsafe.permitted ha, fun p hp => Option.some.inj hp ▸ hsafe.answered ha⟩
  | stop => exact ⟨hI, fun p hp => nomatch hp⟩

theorem Upholds.run (h : o.Upholds begins permit I) (hr : o.Reaches begins x y) (hI : I x.world)
    (hx : x.running = none) :
    I y.world ∧ ∀ p, y.running = some p → p.Safe o permit (fun _ _ => True) y.world := by
  induction hr with
  | refl => exact ⟨hI, fun p hp => by simp [hx] at hp⟩
  | tail _ hs ih => exact h.step hs ih.1 ih.2

theorem reaches_follow {serve : (c : C) → W → R c × W}
    (h : ∀ c w, o.answers c w (serve c w).1 (serve c w).2) (n : Nat) (p : Program C R α) (w : W) :
    o.Reaches begins ⟨w, some p⟩ ⟨(p.follow serve n w).2, some (p.follow serve n w).1⟩ := by
  induction n generalizing p w with
  | zero => exact .refl
  | succ n ih =>
    cases p with
    | done a => exact .refl
    | call c next => exact (ReflTransGen.single (.call (h c w))).trans (ih _ _)

/-- Along a run, every call is permitted when it is made. -/
theorem Upholds.permitted (h : o.Upholds begins permit I) (hr : o.Reaches begins x y)
    (hI : I x.world) (hx : x.running = none) {c : C} (hc : y.Sends c) : permit c y.world := by
  obtain ⟨next, hnext⟩ := hc
  exact ((h.run hr hI hx).2 _ hnext).permitted

/-! ## Runs with edits between programs -/

/-- One step of a run in which the world is also edited, but only while no program is made. -/
inductive EditStep (o : Outside C R W) (begins : W → Program C R α → Prop) (edits : W → W → Prop) :
    Situation C R W α → Situation C R W α → Prop
  | step {x y : Situation C R W α} : o.Step begins x y → EditStep o begins edits x y
  | edit {w w' : W} : edits w w' → EditStep o begins edits ⟨w, none⟩ ⟨w', none⟩

/-- Along every such run the invariant holds, programs make only permitted calls, and they end only
in what is expected. -/
structure Governs (o : Outside C R W) (begins : W → Program C R α → Prop) (edits : W → W → Prop)
    (permit : C → W → Prop) (expected : α → Prop) (I : W → Prop) : Prop where
  drift : o.Keeps I
  edit : ∀ {w w'}, I w → edits w w' → I w'
  call : ∀ {c w r w'}, I w → permit c w → o.answers c w r w' → I w'
  begin : ∀ {w p}, I w → begins w p → p.Safe o permit (fun a _ => expected a) w

variable {edits : W → W → Prop} {expected : α → Prop}

theorem Governs.step (h : o.Governs begins edits permit expected I)
    (hs : o.EditStep begins edits x y) (hI : I x.world)
    (hx : ∀ p, x.running = some p → p.Safe o permit (fun a _ => expected a) x.world) :
    I y.world ∧ ∀ p, y.running = some p → p.Safe o permit (fun a _ => expected a) y.world := by
  cases hs with
  | edit he => exact ⟨h.edit hI he, fun p hp => nomatch hp⟩
  | step hs =>
    cases hs with
    | drift hd => exact ⟨h.drift hd hI, fun p hp => (hx p hp).drift hd⟩
    | begin hb => exact ⟨hI, fun p hp => Option.some.inj hp ▸ h.begin hI hb⟩
    | call ha =>
      have hsafe := hx _ rfl
      exact ⟨h.call hI hsafe.permitted ha, fun p hp => Option.some.inj hp ▸ hsafe.answered ha⟩
    | stop => exact ⟨hI, fun p hp => nomatch hp⟩

theorem Governs.run (h : o.Governs begins edits permit expected I)
    (hr : ReflTransGen (o.EditStep begins edits) x y) (hI : I x.world) (hx : x.running = none) :
    I y.world ∧ ∀ p, y.running = some p → p.Safe o permit (fun a _ => expected a) y.world := by
  induction hr with
  | refl => exact ⟨hI, fun p hp => by simp [hx] at hp⟩
  | tail _ hs ih => exact h.step hs ih.1 ih.2

end Outside

end BareMetal
