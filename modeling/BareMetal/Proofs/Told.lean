import BareMetal.Failure
import BareMetal.Proofs.Run

/-!
# Passes that are told

When every call is answered by a function, a pass is determined: it ends in a result, leaves what is
remembered, and has made calls (`Told`). One lemma for each construct that passes are made of gives
this for whole passes. Where a pass makes no call twice, the functions are all combinations of answers.
-/

namespace BareMetal

variable {C : Type} {R : C → Type} {S α β : Type}

/-! ## Programs -/

namespace Program

/-- The result of a program whose calls are answered by a function, and its calls. -/
def told (answer : (c : C) → R c) : Program C R α → α × List C
  | .done a => (a, [])
  | .call c next => ((next (answer c)).told answer).map id (c :: ·)

variable {answer : (c : C) → R c}

theorem told_bind (p : Program C R α) (f : α → Program C R β) :
    (p >>= f).told answer = ((f (p.told answer).1).told answer).map id ((p.told answer).2 ++ ·) := by
  induction p with
  | done a => rfl
  | call c next ih =>
    rw [call_bind, told, ih]
    rfl

/-- What holds of every call that the program can make holds of those that it makes. -/
theorem Only.told {P : C → Prop} {p : Program C R α} (h : p.Only P) : ∀ c ∈ (p.told answer).2, P c := by
  induction p with
  | done a => nofun
  | call c next ih => exact List.forall_mem_cons.2 ⟨h.1, ih _ (h.2 _)⟩

end Program

/-! ## Passes -/

/-- What becomes of a pass: its result, what is remembered, and its calls. -/
structure Told (S C α : Type) where
  result : Except Failure α
  memory : S
  calls : List C := []

namespace Told

/-- Goes on after a result, and ends at a failure. -/
def andThen (t : Told S C α) (f : α → S → Told S C β) : Told S C β :=
  match t.result with
  | .ok a => { f a t.memory with calls := t.calls ++ (f a t.memory).calls }
  | .error e => ⟨.error e, t.memory, t.calls⟩

variable {a : α} {e : Failure} {m : S} {cs : List C} {f : α → S → Told S C β}

@[simp] theorem andThen_ok :
    (⟨.ok a, m, cs⟩ : Told S C α).andThen f = ⟨(f a m).result, (f a m).memory, cs ++ (f a m).calls⟩ := rfl

@[simp] theorem andThen_error : (⟨.error e, m, cs⟩ : Told S C α).andThen f = ⟨.error e, m, cs⟩ := rfl

end Told

/-- What becomes of a part of a pass when its calls are answered by a function. -/
def told (answer : (c : C) → R c) (x : ExceptT Failure (StateT S (Program C R)) α) (m : S) : Told S C α :=
  let r := (x.run.run m).told answer
  ⟨r.1.1, r.1.2, r.2⟩

section Told

variable {answer : (c : C) → R c} {m : S} {x : ExceptT Failure (StateT S (Program C R)) α}

@[simp] theorem told_pure {a : α} :
    told answer (pure a : ExceptT Failure (StateT S (Program C R)) α) m = ⟨.ok a, m, []⟩ := rfl

theorem told_throw {e : Failure} :
    told answer (throw e : ExceptT Failure (StateT S (Program C R)) α) m = ⟨.error e, m, []⟩ := rfl

@[simp] theorem told_bind {f : α → ExceptT Failure (StateT S (Program C R)) β} :
    told answer (x >>= f) m = (told answer x m).andThen fun a m => told answer (f a) m := by
  have hrun : (x >>= f).run.run m = (x.run.run m >>= fun r => match r.1 with
      | .ok a => (f a).run.run r.2
      | .error e => .done (.error e, r.2)) := by
    show (x.run.run m >>= fun r => _) = _
    congr 1
    funext r
    obtain ⟨r, m'⟩ := r
    cases r <;> rfl
  unfold told
  rw [hrun, Program.told_bind]
  unfold Told.andThen
  cases h : ((x.run.run m).told answer).1.1 <;> simp [h, Program.told]

theorem prefix_told_bind {f : α → ExceptT Failure (StateT S (Program C R)) β} :
    (told answer x m).calls <+: (told answer (x >>= f) m).calls := by
  rw [told_bind, Told.andThen]
  split
  · exact List.prefix_append ..
  · exact List.prefix_rfl

theorem mem_told_bind {f : α → ExceptT Failure (StateT S (Program C R)) β} {c : C}
    (h : c ∈ (told answer x m).calls) : c ∈ (told answer (x >>= f) m).calls :=
  prefix_told_bind.subset h

theorem mem_told_bind_of_ok {f : α → ExceptT Failure (StateT S (Program C R)) β} {c : C} {a : α} {m' : S}
    {cs : List C} (hx : told answer x m = ⟨.ok a, m', cs⟩) (h : c ∈ (told answer (f a) m').calls) :
    c ∈ (told answer (x >>= f) m).calls := by
  rw [told_bind, hx, Told.andThen_ok]
  exact List.mem_append_right _ h

@[simp] theorem told_map {f : α → β} :
    told answer (f <$> x) m = (told answer x m).andThen fun a m => ⟨.ok (f a), m, []⟩ := by
  rw [map_eq_pure_bind, told_bind]
  rfl

/-- A failure can be looked at. -/
@[simp] theorem told_attempt :
    told answer (ExceptT.lift x.run : ExceptT Failure (StateT S (Program C R)) (Except Failure α)) m =
      ⟨.ok (told answer x m).result, (told answer x m).memory, (told answer x m).calls⟩ := by
  have hrun : (ExceptT.lift x.run : ExceptT Failure (StateT S (Program C R)) (Except Failure α)).run.run m =
      (x.run.run m >>= fun r => .done (.ok r.1, r.2)) := rfl
  unfold told
  rw [hrun, Program.told_bind]
  simp [Program.told]

end Told

end BareMetal
