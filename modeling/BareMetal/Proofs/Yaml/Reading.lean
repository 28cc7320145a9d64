import BareMetal.Yaml.Value
import Mathlib.Data.List.Forall2

/-!
# What nodes denote

Reading a node can fail for reasons that lie outside of it: too many aliases were followed before,
or it stands inside too many collections. By itself, with nothing read before and all the room there
is, a node denotes a value or none (`Document.valueOf`). Two things are shown about the readers.

* What a reader makes of a node inside a document, after other nodes and with or without tags, is
  what the node denotes by itself (`valueOf_of_reads`).
* From the result of a whole reading follow the results of its parts: `Reads.of_bind` and its kin take a
  reading apart, as far as pairs of a mapping (`Reads.of_pairs`).
-/

namespace BareMetal.Yaml

variable {α β : Type}

/-! ## Readings and their results -/

/-- The reading gives `a`, if few enough aliases were followed before. -/
def Reads (r : Read α) (a : α) : Prop := ∃ s t, r s = .ok (a, t)

/-- Whatever `r` gives, `r'` gives too, also after fewer aliases, and without following more. -/
def Within (r r' : Read α) : Prop :=
  ∀ ⦃s t a s'⦄, r s = .ok (a, s') → t ≤ s → ∃ t' ≤ s', r' t = .ok (a, t')

section Rules

variable {a b : α} {r r' : Read α} {f f' : α → Read β} {e : Fault} {s : Nat}

theorem run_bind_eq_ok {b : β} {s' : Nat} (h : (r >>= f) s = .ok (b, s')) :
    ∃ a t, r s = .ok (a, t) ∧ f a t = .ok (b, s') := by
  change (r s >>= fun p => f p.1 p.2) = .ok (b, s') at h
  cases hr : r s with
  | error e => rw [hr] at h; cases h
  | ok p => exact ⟨p.1, p.2, rfl, by rwa [hr] at h⟩

theorem run_bind_of_ok {b : β} {s t s' : Nat} (hr : r s = .ok (a, t)) (hf : f a t = .ok (b, s')) :
    (r >>= f) s = .ok (b, s') := by
  change (r s >>= fun p => f p.1 p.2) = .ok (b, s')
  rw [hr]
  exact hf

theorem map_eq_bind (g : α → β) (r : Read α) : g <$> r = r >>= fun a => pure (g a) :=
  (bind_pure_comp g r).symm

theorem Reads.of_pure (h : Reads (pure a) b) : b = a := by
  obtain ⟨s, t, h⟩ := h
  cases h
  rfl

theorem not_reads_throw : ¬Reads (throw e : Read α) a := by
  rintro ⟨s, t, h⟩
  cases h

theorem Reads.of_bind {b : β} (h : Reads (r >>= f) b) : ∃ a, Reads r a ∧ Reads (f a) b := by
  obtain ⟨s, s', h⟩ := h
  obtain ⟨a, t, hr, hf⟩ := run_bind_eq_ok h
  exact ⟨a, ⟨s, t, hr⟩, ⟨t, s', hf⟩⟩

theorem Reads.of_map {g : α → β} {b : β} (h : Reads (g <$> r) b) :
    ∃ a, Reads r a ∧ b = g a := by
  rw [map_eq_bind] at h
  obtain ⟨a, hr, hp⟩ := h.of_bind
  exact ⟨a, hr, hp.of_pure⟩

theorem Reads.of_mapM {as : List α} {bs : List β} (h : Reads (as.mapM f) bs) :
    List.Forall₂ (fun a b => Reads (f a) b) as bs := by
  induction as generalizing bs with
  | nil =>
    rw [List.mapM_nil] at h
    exact h.of_pure ▸ .nil
  | cons a as ih =>
    rw [List.mapM_cons] at h
    obtain ⟨b, hb, h⟩ := h.of_bind
    obtain ⟨bs', hbs, h⟩ := h.of_bind
    exact h.of_pure ▸ .cons hb (ih hbs)

theorem within_throw : Within (throw e : Read α) r' := by
  intro s t a s' h
  cases h

theorem within_pure : Within (pure a) (pure a) := by
  intro s t a' s' h hle
  cases h
  exact ⟨t, hle, rfl⟩

theorem Within.bind (h : Within r r') (hf : ∀ a, Within (f a) (f' a)) :
    Within (r >>= f) (r' >>= f') := by
  intro s t b s' hrun hle
  obtain ⟨a, s₁, hr, hb⟩ := run_bind_eq_ok hrun
  obtain ⟨t₁, hle₁, hr'⟩ := h hr hle
  obtain ⟨t', hle', hb'⟩ := hf a hb hle₁
  exact ⟨t', hle', run_bind_of_ok hr' hb'⟩

theorem Within.map (h : Within r r') (g : α → β) : Within (g <$> r) (g <$> r') := by
  rw [map_eq_bind, map_eq_bind]
  exact h.bind fun _ => within_pure

theorem Within.mapM (h : ∀ a, Within (f a) (f' a)) (as : List α) :
    Within (as.mapM f) (as.mapM f') := by
  induction as with
  | nil => exact within_pure
  | cons a as ih =>
    rw [List.mapM_cons, List.mapM_cons]
    exact (h a).bind fun b => ih.bind fun bs => within_pure

end Rules

/-! ## Aliases -/

namespace Document

/-- The node that a node stands for: itself, unless it is an alias. -/
def target? (d : Document) : Node → Option Node
  | .alias id => d.anchor? id
  | n => some n

end Document

theorem resolve_alias (d : Document) (id s : Nat) :
    Reader.resolve d (.alias id) s =
      if s + 1 > 100 * d.size then .error .tooManyAliases
      else match d.anchor? id with
        | some n => .ok (n, s + 1)
        | none => .error (.mismatch "an anchor") := by
  change (if s + 1 > 100 * d.size then throw .tooManyAliases
    else match d.anchor? id with
      | some n => pure n
      | none => throw (.mismatch "an anchor") : Read Node) (s + 1) = _
  split
  · rfl
  · cases d.anchor? id <;> rfl

theorem resolve_of_not_alias (d : Document) {n : Node} (h : ∀ id, n ≠ .alias id) :
    Reader.resolve d n = pure n ∧ d.target? n = some n := by
  cases n
  case «alias» id => exact absurd rfl (h id)
  all_goals exact ⟨rfl, rfl⟩

theorem Reads.of_resolve {d : Document} {n m : Node} (h : Reads (Reader.resolve d n) m) :
    d.target? n = some m := by
  by_cases halias : ∃ id, n = .alias id
  · obtain ⟨id, rfl⟩ := halias
    obtain ⟨s, t, h⟩ := h
    rw [resolve_alias] at h
    rw [Document.target?]
    split at h
    · cases h
    · split at h <;> cases h
      assumption
  · obtain ⟨hpure, htarget⟩ := resolve_of_not_alias d fun id hid => halias ⟨id, hid⟩
    rw [hpure] at h
    rw [htarget, h.of_pure]

/-- Fewer aliases before leave more aliases to follow. -/
theorem within_resolve (d : Document) (n : Node) :
    Within (Reader.resolve d n) (Reader.resolve d n) := by
  by_cases halias : ∃ id, n = .alias id
  · obtain ⟨id, rfl⟩ := halias
    intro s t m s' h hle
    rw [resolve_alias] at h ⊢
    by_cases hs : s + 1 > 100 * d.size
    · rw [if_pos hs] at h
      cases h
    · rw [if_neg hs] at h
      rw [if_neg (by omega)]
      cases hid : d.anchor? id with
      | none => rw [hid] at h; cases h
      | some n =>
        rw [hid] at h
        cases h
        exact ⟨t + 1, by omega, rfl⟩
  · rw [(resolve_of_not_alias d fun id hid => halias ⟨id, hid⟩).1]
    exact within_pure

/-! ## Values -/

namespace Reader

theorem within_ofMeaning (text : String) (m : Meaning) :
    Within (ofMeaning text m) (ofMeaning text m) := by
  cases m
  case tooLarge => exact within_throw
  all_goals exact within_pure

theorem within_ofStyle (style : ScalarStyle) (text : String) :
    Within (ofStyle style text) (ofStyle style text) := by
  unfold ofStyle
  split
  · exact within_ofMeaning text _
  · exact within_pure

theorem within_ofScalar (tag : Option String) (style : ScalarStyle) (text : String) :
    Within (ofScalar tag style text) (ofScalar tag style text) := by
  unfold ofScalar
  split
  · exact within_ofStyle style text
  · dsimp only
    repeat' split
    all_goals first | exact within_pure | exact within_throw | exact within_ofMeaning text _

/-- What is read without tags is read with tags as well. -/
theorem within_underTag {v v' : Read Value} (tags : Bool) (tag : Option String) (h : Within v v') :
    Within (underTag tags tag v) (underTag true tag v') := by
  unfold underTag
  cases customTag? tag with
  | none => exact h
  | some name =>
    cases tags with
    | true => exact h.map _
    | false => exact within_throw

theorem within_uniquePairs {read read' : Node → Read Value} (h : ∀ n, Within (read n) (read' n))
    (ps : List (Node × Node)) (done : List (Value × Value)) :
    Within (uniquePairs read read done ps) (uniquePairs read' read' done ps) := by
  induction ps generalizing done with
  | nil => exact within_pure
  | cons p rest ih =>
    unfold uniquePairs
    refine (h p.1).bind fun k => ?_
    dsimp only
    split
    · exact within_throw.bind fun _ => (h p.2).bind fun v => ih _
    · exact (h p.2).bind fun v => ih _

/-- A node inside a node is read with as much room on both sides. -/
theorem within_ofNode {inner? inner?' : Option (Node → Read Value)} (tags : Bool) (n : Node)
    (h : ∀ read ∈ inner?, ∃ read' ∈ inner?', ∀ m, Within (read m) (read' m)) :
    Within (ofNode tags inner? n) (ofNode true inner?' n) := by
  cases n with
  | scalar tag style text =>
    simp only [ofNode]
    split
    · exact within_underTag tags tag (within_ofStyle style text)
    · exact within_ofScalar tag style text
  | sequence tag items =>
    cases inner? with
    | none => exact within_throw
    | some read =>
      obtain ⟨read', rfl, hread⟩ := h read rfl
      exact within_underTag tags tag ((Within.mapM hread items).map _)
  | mapping tag ps =>
    cases inner? with
    | none => exact within_throw
    | some read =>
      obtain ⟨read', rfl, hread⟩ := h read rfl
      exact within_underTag tags tag ((within_uniquePairs hread ps []).map _)
  | «alias» id => exact within_throw

/-- More room and leave to use tags change no value. -/
theorem within_value (tags : Bool) (d : Document) {room room' : Nat} (hle : room ≤ room') (n : Node) :
    Within (value tags d room n) (value true d room' n) := by
  -- The induction is on the room of the reading that succeeds; the other has at least as much.
  induction room generalizing room' n with
  | zero =>
    cases room' <;>
      exact (within_resolve d n).bind fun m => within_ofNode tags m (by simp)
  | succ room ih =>
    cases room' with
    | zero => omega
    | succ room' =>
      refine (within_resolve d n).bind fun m => within_ofNode tags m fun read hread => ?_
      cases hread
      exact ⟨_, rfl, fun m => ih (by omega) m⟩

end Reader

/-- What a node denotes by itself. -/
def Document.valueOf (d : Document) (n : Node) : Except Fault Value :=
  (Reader.value true d Reader.depthLimit n).run' 0

/-- What is read off a node anywhere in a document is what it denotes by itself. -/
theorem valueOf_of_reads {tags : Bool} {d : Document} {room : Nat} {n : Node} {v : Value}
    (h : Reads (Reader.value tags d room n) v) (hroom : room ≤ Reader.depthLimit) :
    d.valueOf n = .ok v := by
  obtain ⟨s, s', h⟩ := h
  obtain ⟨t', -, h'⟩ := Reader.within_value tags d hroom n h (Nat.zero_le s)
  change (fun p : Value × Nat => p.1) <$> Reader.value true d Reader.depthLimit n 0 = .ok v
  rw [h']
  rfl

theorem reads_of_run {r : Reader α} {absent a : α} {d : Document} {n : Node}
    (h : Reader.run r absent d = .ok a) (hn : d.root = some n) :
    Reads (r d Reader.depthLimit n) a := by
  rw [Reader.run, hn] at h
  change (fun p : α × Nat => p.1) <$> r d Reader.depthLimit n 0 = .ok a at h
  cases hr : r d Reader.depthLimit n 0 with
  | error e => rw [hr] at h; cases h
  | ok p =>
    rw [hr] at h
    cases h
    exact ⟨0, p.2, hr⟩

/-! ## Pairs of a mapping -/

/-- The value at a key in a list of pairs; of two with one key, the later counts. -/
def latest? (k : String) : List (String × α) → Option α
  | [] => none
  | e :: es => (latest? k es).or (if e.1 = k then some e.2 else none)

theorem get?_ofList (es : List (String × α)) (k : String) :
    (Dict.ofList es).get? k = latest? k es := by
  have hfold (d : Dict α) :
      (es.foldl (fun d e => d.insert e.1 e.2) d).get? k = (latest? k es).or (d.get? k) := by
    induction es generalizing d with
    | nil => simp [latest?]
    | cons e es ih =>
      rw [List.foldl_cons, ih, latest?, Dict.get?_insert, Option.or_assoc]
      by_cases hk : e.1 = k
      · simp [hk]
      · simp [hk, Ne.symm hk]
  rw [Dict.ofList, hfold]
  exact Option.or_none

theorem latest?_filter {p : String × α → Bool} {k : String} {es : List (String × α)}
    (hp : ∀ e ∈ es, e.1 = k → p e = true) : latest? k (es.filter p) = latest? k es := by
  induction es with
  | nil => rfl
  | cons e es ih =>
    have htail := ih fun e he => hp e (List.mem_cons_of_mem _ he)
    by_cases hpe : p e = true
    · rw [List.filter_cons_of_pos hpe, latest?, latest?, htail]
    · have hk : e.1 ≠ k := fun hk => hpe (hp e List.mem_cons_self hk)
      rw [List.filter_cons_of_neg hpe, latest?, htail, if_neg hk, Option.or_none]

/-- Related values at the same keys are found together. -/
theorem latest?_forall₂ {R : α → β → Prop} (k : String) {es : List (String × α)}
    {fs : List (String × β)} (h : List.Forall₂ (fun e f => f.1 = e.1 ∧ R e.2 f.2) es fs) :
    Option.Rel R (latest? k es) (latest? k fs) := by
  induction h with
  | nil => exact .none
  | @cons e f es fs hef _ ih =>
    rw [latest?, latest?, hef.1]
    generalize latest? k es = a at ih ⊢
    generalize latest? k fs = b at ih ⊢
    cases ih with
    | some hab => exact .some hab
    | none =>
      simp only [Option.none_or]
      split
      · exact .some hef.2
      · exact .none

namespace Document

/-- The text of a scalar. -/
def text? (d : Document) (n : Node) : Option String :=
  match d.target? n with
  | some (.scalar _ _ text) => some text
  | _ => none

/-- The keys of a mapping that are texts with the nodes at them, in order. -/
def fields (d : Document) (n : Node) : List (String × Node) :=
  match d.target? n with
  | some (.mapping _ ps) => ps.filterMap fun p => (d.text? p.1).map (·, p.2)
  | _ => []

end Document

theorem Reads.of_text {d : Document} {room : Nat} {n : Node} {s : String}
    (h : Reads (Reader.text d room n) s) : d.text? n = some s := by
  obtain ⟨m, hm, h⟩ := h.of_bind
  rw [Document.text?, hm.of_resolve]
  cases m
  case scalar => rw [h.of_pure]
  all_goals exact absurd h not_reads_throw

theorem filterMap_of_reads {d : Document} {room : Nat} {ps : List (Node × Node)}
    {qs : List (String × Node)}
    (h : Reads (ps.mapM fun p => do return (← Reader.text d room p.1, p.2)) qs) :
    ps.filterMap (fun p => (d.text? p.1).map (·, p.2)) = qs := by
  have hpairs := h.of_mapM
  clear h
  induction hpairs with
  | nil => rfl
  | cons hq _ ih =>
    obtain ⟨s, hs, hq⟩ := hq.of_bind
    rw [List.filterMap_cons, hs.of_text, ih, hq.of_pure]
    rfl

theorem Reads.of_pairs {d : Document} {k : Nat → List (String × Node) → Read α} {room : Nat}
    {n : Node} {a : α} (h : Reads (Reader.pairs k d room n) a) :
    ∃ room' ≤ room, Reads (k room' (d.fields n)) a := by
  obtain ⟨m, hm, h⟩ := h.of_bind
  rw [Document.fields, hm.of_resolve]
  split at h
  · next tag ps =>
    cases room with
    | zero => exact absurd h not_reads_throw
    | succ room =>
      obtain ⟨qs, hqs, h⟩ := Reads.of_bind (r := ps.mapM _) h
      exact ⟨room, Nat.le_succ room, by rwa [← filterMap_of_reads hqs] at h⟩
  · exact ⟨room, Nat.le_refl room, h⟩
  · exact absurd h not_reads_throw

theorem Reads.of_field? {ps : List (String × Node)} {key : String} {r : Node → Read α} {n : Node}
    {a : Option α} (h : Reads (Reader.field? ps key r) a) (hn : latest? key ps = some n) :
    ∃ b, a = some b ∧ Reads (r n) b := by
  rw [← latest?_filter (p := fun e => e.1 = key) (by simp)] at hn
  unfold Reader.field? at h
  split at h
  · next hps => rw [hps] at hn; cases hn
  · next p hps =>
    have hmem : p ∈ ps.filter (·.1 = key) := hps ▸ List.mem_singleton_self p
    have hp : p.1 = key := by simpa using (List.mem_filter.1 hmem).2
    rw [hps, latest?, latest?, Option.none_or, if_pos hp] at hn
    cases hn
    obtain ⟨b, hb, rfl⟩ := h.of_map
    exact ⟨b, rfl, hb⟩
  · exact absurd h not_reads_throw

end BareMetal.Yaml
