import BareMetal.Proofs.Yaml.Reading

/-!
# Paths

A path goes from a value, or from a node of a document, through keys and items to a part of it.
-/

namespace BareMetal.Yaml

/-- One step into a collection. -/
inductive Step
  | field (key : String)
  | item (i : Nat)
deriving DecidableEq

/-! ## In values -/

namespace Value

/-- The value after one step. -/
def step? (v : Value) : Step → Option Value
  | .field key => v.get? key
  | .item i =>
    match v.untagged with
    | .seq items => items[i]?
    | _ => none

/-- The value at the end of a path. -/
def at? (v : Value) : List Step → Option Value
  | [] => some v
  | s :: p => (v.step? s).bind (·.at? p)

theorem at?_field (v : Value) (key : String) (p : List Step) :
    v.at? (.field key :: p) = (v.get? key).bind (·.at? p) := rfl

theorem at?_item (items : List Value) (i : Nat) (p : List Step) :
    (Value.seq items).at? (.item i :: p) = items[i]?.bind (·.at? p) := rfl

theorem at?_append (v : Value) (p q : List Step) : v.at? (p ++ q) = (v.at? p).bind (·.at? q) := by
  induction p generalizing v with
  | nil => rfl
  | cons s p ih =>
    rw [List.cons_append, at?, at?, Option.bind_assoc]
    exact congrArg _ (funext ih)

/-! ### Keys of a mapping -/

@[simp] theorem get?_map_nil (key : String) : (Value.map []).get? key = none := rfl

@[simp] theorem get?_map_cons (k key : String) (v : Value) (ps : List (Value × Value)) :
    (Value.map ((.str k, v) :: ps)).get? key = if k = key then some v else (Value.map ps).get? key := by
  have hkey : (Value.str k == Value.str key) = (k == key) := rfl
  simp only [get?, untagged, List.find?_cons, hkey]
  by_cases h : k = key
  · simp [h]
  · rw [if_neg h, beq_eq_false_iff_ne.2 h]

@[simp] theorem get?_map_append (ps qs : List (Value × Value)) (key : String) :
    (Value.map (ps ++ qs)).get? key = ((Value.map ps).get? key).or ((Value.map qs).get? key) := by
  simp only [get?, untagged, List.find?_append, Option.map_or]

end Value

/-! ## In documents -/

namespace Document

/-- The node after one step. -/
def step? (d : Document) (n : Node) : Step → Option Node
  | .field key => latest? key (d.fields n)
  | .item i =>
    match d.target? n with
    | some (.sequence _ items) => items[i]?
    | _ => none

/-- The node at the end of a path from a node. -/
def walk (d : Document) (n : Node) : List Step → Option Node
  | [] => some n
  | s :: p => (d.step? n s).bind (d.walk · p)

theorem walk_field (d : Document) (n : Node) (key : String) (p : List Step) :
    d.walk n (.field key :: p) = (latest? key (d.fields n)).bind (d.walk · p) := rfl

theorem walk_singleton (d : Document) (n : Node) (key : String) :
    d.walk n [.field key] = latest? key (d.fields n) := by
  rw [walk_field]
  exact Option.bind_fun_some _

/-- The node at the end of a path from the root. -/
def at? (d : Document) (p : List Step) : Option Node := d.root.bind (d.walk · p)

end Document

/-! ## Equal values -/

namespace Value

mutual

/-- Whether two values are written in the same way and have no floats in them. -/
def identical : Value → Value → Bool
  | .null, .null => true
  | .bool a, .bool b => a == b
  | .int a, .int b => a == b
  | .str a, .str b => a == b
  | .seq as, .seq bs => identicalItems as bs
  | .map as, .map bs => identicalPairs as bs
  | .tagged s a, .tagged t b => s == t && identical a b
  | _, _ => false

/-- Whether two lists have the same items in the same order. -/
def identicalItems : List Value → List Value → Bool
  | [], [] => true
  | a :: as, b :: bs => identical a b && identicalItems as bs
  | _, _ => false

/-- Whether two lists have the same pairs in the same order. -/
def identicalPairs : List (Value × Value) → List (Value × Value) → Bool
  | [], [] => true
  | a :: as, b :: bs => (identical a.1 b.1 && identical a.2 b.2) && identicalPairs as bs
  | _, _ => false

end

mutual

theorem eq_of_identical : ∀ {v w : Value}, identical v w = true → v = w
  | .null, .null, _ => rfl
  | .bool a, .bool b, h => by simp only [identical, beq_iff_eq] at h; rw [h]
  | .int a, .int b, h => by simp only [identical, beq_iff_eq] at h; rw [h]
  | .str a, .str b, h => by simp only [identical, beq_iff_eq] at h; rw [h]
  | .seq as, .seq bs, h => by rw [eq_of_identicalItems h]
  | .map as, .map bs, h => by rw [eq_of_identicalPairs h]
  | .tagged s a, .tagged t b, h => by
    simp only [identical, Bool.and_eq_true, beq_iff_eq] at h
    rw [h.1, eq_of_identical h.2]

theorem eq_of_identicalItems : ∀ {as bs : List Value}, identicalItems as bs = true → as = bs
  | [], [], _ => rfl
  | a :: as, b :: bs, h => by
    simp only [identicalItems, Bool.and_eq_true] at h
    rw [eq_of_identical h.1, eq_of_identicalItems h.2]

theorem eq_of_identicalPairs :
    ∀ {as bs : List (Value × Value)}, identicalPairs as bs = true → as = bs
  | [], [], _ => rfl
  | (j, a) :: as, (k, b) :: bs, h => by
    simp only [identicalPairs, Bool.and_eq_true] at h
    rw [eq_of_identical h.1.1, eq_of_identical h.1.2, eq_of_identicalPairs h.2]

end

end Value

end BareMetal.Yaml
