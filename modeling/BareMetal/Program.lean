/-!
# Programs over calls

A reconciliation pass talks to the outside only through calls. `Program C R α` is such a pass as
data: a tree whose nodes are calls `c : C`, whose branches are the possible answers `R c`, and
whose leaves are the results. Running one against a handler, or replacing its calls by calls of
a lower layer, is recursion on the tree, so whatever holds of every path holds under every
scheduling of answers and failures.
-/

namespace BareMetal

/-- A computation that makes calls `c : C`, each answered by an `R c`, and ends in an `α`. -/
inductive Program (C : Type) (R : C → Type) (α : Type) : Type
  | done (a : α)
  | call (c : C) (next : R c → Program C R α)

namespace Program

variable {C D : Type} {R : C → Type} {S : D → Type} {α β : Type}

/-- Runs `f` on the result. -/
protected def bind : Program C R α → (α → Program C R β) → Program C R β
  | .done a, f => f a
  | .call c next, f => .call c fun r => (next r).bind f

instance : Monad (Program C R) where
  pure := .done
  bind := Program.bind

/-- Makes one call and ends in its answer. -/
def perform (c : C) : Program C R (R c) := .call c .done

/-- Answers every call with `answer`, in order. -/
def run {m : Type → Type} [Monad m] (answer : (c : C) → m (R c)) : Program C R α → m α
  | .done a => pure a
  | .call c next => do
    let r ← answer c
    (next r).run answer

/-- Replaces every call by a program over the calls of another layer. -/
def lower (layer : (c : C) → Program D S (R c)) : Program C R α → Program D S α
  | .done a => .done a
  | .call c next => (layer c).bind fun r => (next r).lower layer

/-! ## Laws -/

@[simp] theorem pure_eq_done (a : α) : (pure a : Program C R α) = .done a := rfl

@[simp] theorem done_bind (a : α) (f : α → Program C R β) : (.done a : Program C R α) >>= f = f a :=
  rfl

@[simp] theorem call_bind (c : C) (next : R c → Program C R α) (f : α → Program C R β) :
    .call c next >>= f = .call c fun r => next r >>= f := rfl

theorem bind_done (p : Program C R α) : p >>= .done = p := by
  induction p with
  | done a => rfl
  | call c next ih => rw [call_bind]; exact congrArg _ (funext ih)

theorem bind_assoc' {γ : Type} (p : Program C R α) (f : α → Program C R β)
    (g : β → Program C R γ) : p >>= f >>= g = p >>= fun a => f a >>= g := by
  induction p with
  | done a => rfl
  | call c next ih => simp only [call_bind]; exact congrArg _ (funext ih)

instance : LawfulMonad (Program C R) :=
  LawfulMonad.mk' _ bind_done (fun _ _ => rfl) bind_assoc'

end Program

end BareMetal
