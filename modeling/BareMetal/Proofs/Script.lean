import BareMetal.Proofs.Logic
import BareMetal.Proofs.Told

/-!
# Scripts

A script says which steps a program may take at each place, and to which place each answer leads. That
a program follows its script is proved once, along its functions (`Logic.ofScript`). What is to be said
of its steps is then a question to the script, one kind of step after the other: what they mean to a world
that changes by itself (`Program.Follows.safe`), or what is made of them when the answers are known
(`Program.Follows.told`).
-/

namespace BareMetal

variable {C D : Type} {R : C → Type} {T : D → Type} {S M W α β : Type}

/-- Which steps may be taken at a place, and where the answers to them lead. -/
abbrev Script (C : Type) (R : C → Type) (S : Type) := S → (c : C) → (R c → S) → Prop

namespace Program

/-- From the place on, the program takes only steps of the script, and where it ends, its result satisfies the
assertion. -/
def Follows (may : Script C R S) (Q : α → S → Prop) : Program C R α → S → Prop
  | .done a, s => Q a s
  | .call c next, s => ∃ dest, may s c dest ∧ ∀ r, (next r).Follows may Q (dest r)

variable {may : Script C R S} {Q Q' : α → S → Prop} {p : Program C R α} {s : S}

theorem Follows.mono (h : p.Follows may Q s) (hQ : ∀ a s, Q a s → Q' a s) : p.Follows may Q' s := by
  induction p generalizing s with
  | done a => exact hQ a s h
  | call c next ih =>
    obtain ⟨dest, hmay, hnext⟩ := h
    exact ⟨dest, hmay, fun r => ih r (hnext r)⟩

theorem Follows.bind {f : α → Program C R β} {Q : β → S → Prop}
    (h : p.Follows may (fun a s => (f a).Follows may Q s) s) : (p >>= f).Follows may Q s := by
  induction p generalizing s with
  | done a => exact h
  | call c next ih =>
    obtain ⟨dest, hmay, hnext⟩ := h
    exact ⟨dest, hmay, fun r => ih r (hnext r)⟩

/-- A program with a script is safe if each step is carried out safely from what is known at its place, and
what is known where the answer leads is then true. -/
theorem Follows.safe {layer : (c : C) → Program D T (R c)} {o : Outside D T W} {permit : D → W → Prop}
    {I : S → W → Prop} {w : W} (h : p.Follows may Q s)
    (hstep : ∀ {s c dest}, may s c dest → ∀ w, I s w → (layer c).Safe o permit (fun r w => I (dest r) w) w)
    (hw : I s w) : (p.lower layer).Safe o permit (fun a w => ∃ s, Q a s ∧ I s w) w := by
  induction p generalizing s w with
  | done a => exact ⟨s, h, hw⟩
  | call c next ih =>
    obtain ⟨dest, hmay, hnext⟩ := h
    exact ((hstep hmay w hw).mono (fun _ _ h => h) fun r w hr => ih r (hnext r) hr).bind

/-- A program with a script is safe if each step is permitted by what is known at its place, and leads to where
it is known again. -/
theorem Follows.safe_perform {o : Outside C R W} {permit : C → W → Prop} {I : S → W → Prop} {w : W}
    (h : p.Follows may Q s) (hkeeps : ∀ s, o.Keeps (I s))
    (hpermit : ∀ {s c dest}, may s c dest → ∀ w, I s w → permit c w)
    (hnext : ∀ {s c dest}, may s c dest → ∀ w r w', I s w → o.answers c w r w' → I (dest r) w') (hw : I s w) :
    p.Safe o permit (fun a w => ∃ s, Q a s ∧ I s w) w := by
  have hsafe : (p.lower perform).Safe o permit (fun a w => ∃ s, Q a s ∧ I s w) w :=
    h.safe (fun {s _ _} hmay _ hw => Program.safe_perform (hkeeps s) (hpermit hmay) (hnext hmay) hw) hw
  rwa [lower_perform] at hsafe

section Told

variable {answer : (c : C) → R c}

/-- When the answers are given by a function, what holds of every step of the script from what is known at
its place holds of the steps that are taken. -/
theorem Follows.told {I : S → Prop} {P : C → Prop} (h : p.Follows may Q s)
    (hstep : ∀ {s c dest}, may s c dest → I s → P c ∧ I (dest (answer c))) (hs : I s) :
    ∀ c ∈ (p.told answer).2, P c := by
  induction p generalizing s with
  | done => nofun
  | call c next ih =>
    obtain ⟨dest, hmay, hnext⟩ := h
    obtain ⟨hc, hdest⟩ := hstep hmay hs
    exact List.forall_mem_cons.2 ⟨hc, ih _ (hnext _) hdest⟩

/-- No more steps are picked than are left for the place, if each takes its own from what is left. -/
theorem Follows.length_told {pick : C → Option β} (h : p.Follows may Q s) (left : S → Nat)
    (hstep : ∀ {s c dest}, may s c dest → ∀ r, (pick c).toList.length + left (dest r) ≤ left s) :
    ((p.told answer).2.filterMap pick).length ≤ left s := by
  induction p generalizing s with
  | done => exact Nat.zero_le _
  | call c next ih =>
    obtain ⟨dest, hmay, hnext⟩ := h
    have hleft := hstep hmay (answer c)
    have hrest := ih _ (hnext (answer c))
    have hpicked (cs : List C) :
        ((c :: cs).filterMap pick).length = (pick c).toList.length + (cs.filterMap pick).length := by
      cases hc : pick c <;> simp [hc, Nat.add_comm]
    show ((c :: ((next (answer c)).told answer).2).filterMap pick).length ≤ left s
    rw [hpicked]
    omega

end Told

end Program

namespace Logic

/-- Reasoning about what follows a script, from place to place. -/
def ofScript (may : Script C R S) : Logic (Program C R) S where
  wp p Q := p.Follows may Q
  wp_pure h := h
  wp_bind h := h.bind
  wp_mono h hQ := h.mono hQ

variable {may : Script C R S}

theorem wp_scripted {c : C} {dest : R c → S} {Q : R c → S → Prop} {s : S} (hc : may s c dest)
    (hQ : ∀ r, Q r (dest r)) : ((ofScript may).withMemory M).wp (StateT.lift (Program.perform c)) Q s :=
  fun _ => ⟨dest, hc, hQ⟩

end Logic

end BareMetal
