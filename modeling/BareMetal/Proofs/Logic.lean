import BareMetal.Proofs.Run

/-!
# Reasoning about passes

Passes are programs that carry a memory and end at the first failure. `Logic` is what a monad needs
to be reasoned about from its parts, and `Logic.LeadsOr` speaks of computations over such a monad
that can fail: from the precondition they make only permitted calls, their result satisfies the
postcondition, and they fail only in known ways. The rules follow the constructs that passes are made of.
-/

namespace BareMetal

variable {W α β : Type}

/-- A reading of computations as transformers of assertions on a world. -/
structure Logic (M : Type → Type) [Monad M] (W : Type) where
  /-- Started in the world, the computation behaves and its result satisfies the assertion. -/
  wp {α : Type} : M α → (α → W → Prop) → W → Prop
  wp_pure {α : Type} {a : α} {Q : α → W → Prop} {w : W} : Q a w → wp (pure a) Q w
  wp_bind {α β : Type} {p : M α} {f : α → M β} {Q : β → W → Prop} {w : W} :
    wp p (fun a => wp (f a) Q) w → wp (p >>= f) Q w
  wp_mono {α : Type} {p : M α} {Q Q' : α → W → Prop} {w : W} :
    wp p Q w → (∀ a w, Q a w → Q' a w) → wp p Q' w

namespace Logic

/-! ## Readings -/

section Readings

variable {C D : Type} {R : C → Type} {T : D → Type} (o : Outside D T W) (permit : D → W → Prop)
  (layer : (c : C) → Program D T (R c))

/-- A program whose calls are spelled out in the calls of another layer. -/
def ofProgram : Logic (Program C R) W where
  wp p Q := (p.lower layer).Safe o permit Q
  wp_pure h := h
  wp_bind h := by
    rw [Program.bind_lower]
    exact Program.Safe.bind h
  wp_mono h hQ := h.mono (fun _ _ h => h) hQ

/-- A computation with a memory, whatever is in the memory. -/
def withMemory {M : Type → Type} [Monad M] (l : Logic M W) (S : Type) : Logic (StateT S M) W where
  wp p Q w := ∀ m, l.wp (p.run m) (fun r => Q r.1) w
  wp_pure h _ := l.wp_pure h
  wp_bind h m := l.wp_bind (l.wp_mono (h m) fun r _ h => h r.2)
  wp_mono h hQ m := l.wp_mono (h m) fun r => hQ r.1

variable {o permit layer} {S : Type} {w : W}

theorem wp_perform {c : C} {Q : R c → W → Prop} (h : (layer c).Safe o permit Q w) :
    ((ofProgram o permit layer).withMemory S).wp (StateT.lift (Program.perform c)) Q w := by
  intro m
  exact Program.Safe.bind (h.mono (fun _ _ h => h) fun _ _ h => h)

theorem wp_modify {M : Type → Type} [Monad M] {l : Logic M W} {f : S → S} {Q : Unit → W → Prop}
    (h : Q () w) : (l.withMemory S).wp (modify f) Q w :=
  fun _ => l.wp_pure h

theorem wp_get {M : Type → Type} [Monad M] {l : Logic M W} {Q : S → W → Prop}
    (h : ∀ m, Q m w) : (l.withMemory S).wp get Q w :=
  fun m => l.wp_pure (h m)

end Readings

/-! ## Computations that can fail -/

variable {M : Type → Type} [Monad M] {F : Type}

/-- From `P`, the computation behaves; if it does not fail, its result satisfies `Q`, and it fails
only as `E` says. -/
def LeadsOr (l : Logic M W) (E : F → W → Prop) (P : W → Prop) (p : ExceptT F M α) (Q : α → W → Prop) : Prop :=
  ∀ w, P w → l.wp p.run (fun r w => (∀ a, r = .ok a → Q a w) ∧ ∀ f, r = .error f → E f w) w

/-- From `P`, the computation behaves, and if it does not fail, its result satisfies `Q`. -/
abbrev Leads (l : Logic M W) (P : W → Prop) (p : ExceptT F M α) (Q : α → W → Prop) : Prop :=
  l.LeadsOr (fun _ _ => True) P p Q

variable {l : Logic M W} {E : F → W → Prop} {P P' : W → Prop} {Q Q' : α → W → Prop} {p : ExceptT F M α}

theorem LeadsOr.mono (h : l.LeadsOr E P p Q) (hP : ∀ w, P' w → P w) (hQ : ∀ a w, Q a w → Q' a w) :
    l.LeadsOr E P' p Q' :=
  fun w hw => l.wp_mono (h w (hP w hw)) fun _ w hr => ⟨fun a ha => hQ a w (hr.1 a ha), hr.2⟩

theorem LeadsOr.weaken (h : l.LeadsOr E P p Q) (hQ : ∀ a w, Q a w → Q' a w) : l.LeadsOr E P p Q' :=
  h.mono (fun _ h => h) hQ

theorem LeadsOr.strengthen (h : l.LeadsOr E P p Q) (hP : ∀ w, P' w → P w) : l.LeadsOr E P' p Q :=
  h.mono hP fun _ _ h => h

theorem leadsOr_pure {a : α} (h : ∀ w, P w → Q a w) : l.LeadsOr E P (pure a : ExceptT F M α) Q := by
  intro w hw
  refine l.wp_pure ⟨fun b hb => ?_, nofun⟩
  cases hb
  exact h w hw

theorem leadsOr_throw {f : F} (h : ∀ w, P w → E f w) : l.LeadsOr E P (throw f : ExceptT F M α) Q := by
  intro w hw
  refine l.wp_pure ⟨nofun, fun g hg => ?_⟩
  cases hg
  exact h w hw

theorem LeadsOr.bind {f : α → ExceptT F M β} {Q' : β → W → Prop} (h : l.LeadsOr E P p Q)
    (hf : ∀ a, l.LeadsOr E (Q a) (f a) Q') : l.LeadsOr E P (p >>= f) Q' := by
  intro w hw
  refine l.wp_bind (l.wp_mono (h w hw) fun r w' hr => ?_)
  cases r with
  | ok a => exact hf a w' (hr.1 a rfl)
  | error e =>
    refine l.wp_pure ⟨nofun, fun g hg => ?_⟩
    cases hg
    exact hr.2 e rfl

theorem leadsOr_check {r : Except F α} (h : ∀ a, r = .ok a → ∀ w, P w → Q a w)
    (hE : ∀ f, r = .error f → ∀ w, P w → E f w) : l.LeadsOr E P (ExceptT.mk (pure r)) Q :=
  fun w hw => l.wp_pure ⟨fun a ha => h a ha w hw, fun f hf => hE f hf w hw⟩

theorem leadsOr_lift [LawfulMonad M] {p : M α} (h : ∀ w, P w → l.wp p Q w) :
    l.LeadsOr E P (ExceptT.lift p : ExceptT F M α) Q := by
  intro w hw
  show l.wp (Except.ok <$> p) _ w
  rw [map_eq_pure_bind]
  refine l.wp_bind (l.wp_mono (h w hw) fun a w' ha => l.wp_pure ⟨fun b hb => ?_, nofun⟩)
  cases hb
  exact ha

/-- A failure can be looked at. -/
theorem LeadsOr.attempt [LawfulMonad M] (h : l.LeadsOr E P p Q) :
    l.LeadsOr E P (ExceptT.lift p.run : ExceptT F M (Except F α))
      fun r w => (∀ a, r = .ok a → Q a w) ∧ ∀ f, r = .error f → E f w :=
  leadsOr_lift h

theorem leadsOr_forIn {γ δ : Type} {as : List γ} {f : γ → ExceptT F M δ}
    (h : ∀ a ∈ as, l.LeadsOr E P (f a) fun _ => P) :
    l.LeadsOr E P (forIn as PUnit.unit fun a _ => do
      let _ ← f a
      pure (ForInStep.yield PUnit.unit)) fun _ => P := by
  induction as with
  | nil => exact leadsOr_pure fun _ h => h
  | cons a as ih =>
    rw [List.forIn_cons]
    have hstep : l.LeadsOr E P (f a >>= fun _ => pure (ForInStep.yield PUnit.unit))
        fun r w => r = ForInStep.yield PUnit.unit ∧ P w :=
      (h a List.mem_cons_self).bind fun _ => leadsOr_pure fun _ hw => ⟨rfl, hw⟩
    refine hstep.bind fun r w hw => ?_
    rw [hw.1]
    exact ih (fun b hb => h b (List.mem_cons_of_mem _ hb)) w hw.2

theorem leads_throw (f : F) : l.Leads P (throw f : ExceptT F M α) Q := leadsOr_throw fun _ _ => trivial

theorem leads_check {r : Except F α} (h : ∀ a, r = .ok a → ∀ w, P w → Q a w) :
    l.Leads P (ExceptT.mk (pure r)) Q :=
  leadsOr_check h fun _ _ _ _ => trivial

/-! ## Computations that succeed -/

/-- From the first world, the computation behaves, does not fail, and ends with the result in the
second world. -/
def Yields (l : Logic M W) (p : ExceptT F M α) (w : W) (a : α) (w' : W) : Prop :=
  l.wp p.run (fun r v => r = .ok a ∧ v = w') w

section Yields

variable {a : α} {b : β} {w w' w'' : W}

theorem yields_iff : l.Yields p w a w' ↔ l.wp p.run (fun r v => r = .ok a ∧ v = w') w := .rfl

theorem yields_pure : l.Yields (pure a : ExceptT F M α) w a w := l.wp_pure ⟨rfl, rfl⟩

theorem yields_check {r : Except F α} (h : r = .ok a) : l.Yields (ExceptT.mk (pure r)) w a w :=
  l.wp_pure ⟨h, rfl⟩

theorem Yields.bind {f : α → ExceptT F M β} (h : l.Yields p w a w') (hf : l.Yields (f a) w' b w'') :
    l.Yields (p >>= f) w b w'' := by
  refine l.wp_bind (l.wp_mono h ?_)
  rintro _ _ ⟨rfl, rfl⟩
  exact hf

theorem yields_lift [LawfulMonad M] {p : M α} (h : l.wp p (fun b v => b = a ∧ v = w') w) :
    l.Yields (ExceptT.lift p : ExceptT F M α) w a w' := by
  show l.wp (Except.ok <$> p) _ w
  rw [map_eq_pure_bind]
  refine l.wp_bind (l.wp_mono h ?_)
  rintro _ _ ⟨rfl, rfl⟩
  exact l.wp_pure ⟨rfl, rfl⟩

theorem Yields.attempt [LawfulMonad M] (h : l.Yields p w a w') :
    l.Yields (ExceptT.lift p.run : ExceptT F M (Except F α)) w (.ok a) w' :=
  yields_lift h

end Yields

-- what a computation yields is not to be computed, but put together by the rules above
attribute [irreducible] Yields

end Logic

end BareMetal
