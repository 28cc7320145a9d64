/-!
# Dictionaries

Finite maps from texts, kept as their entries in strictly ascending order of key. Two
dictionaries with the same look-ups are equal, and walking one visits its keys in order, which is
the order in which labels, annotations and options are written.
-/

namespace BareMetal

namespace Dict.Entries

variable {α β : Type}

/-- Writes `v` at `k`: inserts an entry or replaces the one there. -/
def insert (k : String) (v : α) : List (String × α) → List (String × α)
  | [] => [(k, v)]
  | e :: rest =>
    if k < e.1 then (k, v) :: e :: rest
    else if k = e.1 then (k, v) :: rest
    else e :: insert k v rest

/-- The value at `k`. -/
def get? (k : String) : List (String × α) → Option α
  | [] => none
  | e :: rest => if k = e.1 then some e.2 else get? k rest

/-- The keys ascend strictly. -/
abbrev Ascending (es : List (String × α)) : Prop := es.Pairwise fun a b => a.1 < b.1

theorem mem_insert {k : String} {v : α} {es : List (String × α)} {e : String × α}
    (h : e ∈ insert k v es) : e = (k, v) ∨ e ∈ es := by
  induction es with
  | nil => simpa [insert] using h
  | cons d rest ih =>
    unfold insert at h
    split at h
    · simpa using h
    · split at h
      · rcases List.mem_cons.1 h with h | h
        · exact .inl h
        · exact .inr (List.mem_cons_of_mem _ h)
      · rcases List.mem_cons.1 h with h | h
        · exact .inr (h ▸ List.mem_cons_self)
        · exact (ih h).imp_right (List.mem_cons_of_mem _)

theorem lt_of_not_lt_of_ne {a b : String} (h : ¬a < b) (h' : a ≠ b) : b < a := by
  rcases Std.lt_trichotomy a b with h₁ | h₁ | h₁
  · exact absurd h₁ h
  · exact absurd h₁ h'
  · exact h₁

theorem ascending_insert (k : String) (v : α) {es : List (String × α)} (h : Ascending es) :
    Ascending (insert k v es) := by
  induction es with
  | nil => simp [insert]
  | cons e rest ih =>
    have hrest := List.pairwise_cons.1 h
    unfold insert
    split
    · next hlt =>
      refine List.pairwise_cons.2 ⟨fun d hd => ?_, h⟩
      rcases List.mem_cons.1 hd with rfl | hd
      · exact hlt
      · exact String.lt_trans hlt (hrest.1 d hd)
    · split
      · next heq => exact List.pairwise_cons.2 ⟨fun d hd => heq ▸ hrest.1 d hd, hrest.2⟩
      · next hlt hne =>
        refine List.pairwise_cons.2 ⟨fun d hd => ?_, ih hrest.2⟩
        rcases mem_insert hd with rfl | hd
        · exact lt_of_not_lt_of_ne hlt hne
        · exact hrest.1 d hd

theorem get?_insert (k q : String) (v : α) (es : List (String × α)) :
    get? q (insert k v es) = if q = k then some v else get? q es := by
  induction es with
  | nil => simp [insert, get?]
  | cons e rest ih =>
    unfold insert
    split
    · simp [get?]
    · split
      · next heq =>
        subst heq
        by_cases hq : q = e.1 <;> simp [get?, hq]
      · next hne =>
        by_cases hq : q = e.1
        · have : q ≠ k := fun h => hne (h ▸ hq)
          simp [get?, hq, Ne.symm hne]
        · simp [get?, hq, ih]

theorem get?_filter_ne (k q : String) (es : List (String × α)) :
    get? q (es.filter fun e => e.1 != k) = if q = k then none else get? q es := by
  induction es with
  | nil => simp [get?]
  | cons e rest ih =>
    by_cases hk : e.1 = k
    · rw [List.filter_cons_of_neg (by simpa using hk), ih]
      by_cases hq : q = k
      · simp [hq]
      · simp [get?, hq, hk]
    · rw [List.filter_cons_of_pos (by simpa using hk), get?, get?, ih]
      by_cases hq : q = e.1
      · simp [hq, hk]
      · simp [hq]

theorem get?_eq_none_of_lt {k : String} {es : List (String × α)} (h : ∀ e ∈ es, k < e.1) :
    get? k es = none := by
  induction es with
  | nil => rfl
  | cons e rest ih =>
    have hlt : k < e.1 := h e List.mem_cons_self
    have hne : k ≠ e.1 := fun heq => String.lt_irrefl e.1 (heq ▸ hlt)
    rw [get?, if_neg hne]
    exact ih fun d hd => h d (List.mem_cons_of_mem e hd)

theorem get?_filter {es : List (String × α)} (h : Ascending es) (p : String → α → Bool) (k : String) :
    get? k (es.filter fun e => p e.1 e.2) = (get? k es).filter (p k) := by
  induction es with
  | nil => rfl
  | cons e rest ih =>
    have hrest := List.pairwise_cons.1 h
    by_cases hp : p e.1 e.2 = true
    · rw [List.filter_cons_of_pos (by exact hp), get?, get?, ih hrest.2]
      by_cases hk : k = e.1
      · subst hk
        rw [if_pos rfl, if_pos rfl, Option.filter_some_pos hp]
      · simp [hk]
    · rw [List.filter_cons_of_neg (by exact hp), get?, ih hrest.2]
      by_cases hk : k = e.1
      · subst hk
        simp [Option.filter, hp, get?_eq_none_of_lt hrest.1]
      · simp [hk]

theorem fst_eq_of_get? {k : String} {v : α} {e : String × α} {es : List (String × α)}
    (hes : Ascending (e :: es)) (h : get? k (e :: es) = some v) (hlt : ¬e.1 < k) : k = e.1 := by
  by_cases hk : k = e.1
  · exact hk
  · have hall : ∀ d ∈ e :: es, k < d.1 := by
      have hke : k < e.1 := lt_of_not_lt_of_ne hlt (Ne.symm hk)
      refine fun d hd => (List.mem_cons.1 hd).elim (fun hde => hde ▸ hke) fun hd => ?_
      exact String.lt_trans hke ((List.pairwise_cons.1 hes).1 d hd)
    rw [get?_eq_none_of_lt hall] at h
    cases h

/-- Ascending entries are determined by the look-ups. -/
theorem ext_get? {es fs : List (String × α)} (hes : Ascending es) (hfs : Ascending fs)
    (h : ∀ k, get? k es = get? k fs) : es = fs := by
  induction es generalizing fs with
  | nil =>
    cases fs with
    | nil => rfl
    | cons f fs =>
      have hf := h f.1
      simp [get?] at hf
  | cons e es ih =>
    cases fs with
    | nil =>
      have he := h e.1
      simp [get?] at he
    | cons f fs =>
      have hhead : get? e.1 (e :: es) = some e.2 := by simp [get?]
      have hhead' : get? f.1 (f :: fs) = some f.2 := by simp [get?]
      -- the first keys agree, since neither is before the other
      have hkey : e.1 = f.1 := by
        by_cases hlt : f.1 < e.1
        · have hge : ¬e.1 < f.1 := fun hl => String.lt_irrefl _ (String.lt_trans hlt hl)
          exact (fst_eq_of_get? hes ((h f.1).trans hhead') hge).symm
        · exact fst_eq_of_get? hfs ((h e.1).symm.trans hhead) hlt
      have hvalue : e.2 = f.2 := by
        rw [h e.1, hkey, hhead'] at hhead
        exact (Option.some.inj hhead).symm
      have htail : ∀ k, get? k es = get? k fs := by
        intro k
        by_cases hk : k = e.1
        · rw [hk, get?_eq_none_of_lt (List.pairwise_cons.1 hes).1, hkey,
            get?_eq_none_of_lt (List.pairwise_cons.1 hfs).1]
        · have hrest := h k
          rwa [get?, get?, if_neg hk, if_neg (hkey ▸ hk)] at hrest
      rw [Prod.ext hkey hvalue, ih hes.of_cons hfs.of_cons htail]

end Dict.Entries

/-- A finite map from texts to `α`. -/
structure Dict (α : Type) where
  /-- The entries in ascending order of key. -/
  entries : List (String × α)
  ascending : Dict.Entries.Ascending entries := by exact .nil
deriving DecidableEq

namespace Dict

variable {α β : Type}

/-- The dictionary without entries. -/
def empty : Dict α where
  entries := []

instance : EmptyCollection (Dict α) := ⟨empty⟩
instance : Inhabited (Dict α) := ⟨empty⟩

/-- The value at `k`. -/
def get? (d : Dict α) (k : String) : Option α := Entries.get? k d.entries

/-- Whether there is a value at `k`. -/
def contains (d : Dict α) (k : String) : Bool := (d.get? k).isSome

/-- Writes `v` at `k`. -/
def insert (d : Dict α) (k : String) (v : α) : Dict α where
  entries := Entries.insert k v d.entries
  ascending := Entries.ascending_insert k v d.ascending

/-- Keeps the entries that satisfy `p`. -/
def filter (p : String → α → Bool) (d : Dict α) : Dict α where
  entries := d.entries.filter fun e => p e.1 e.2
  ascending := d.ascending.filter _

/-- Drops the entry at `k`. -/
def erase (d : Dict α) (k : String) : Dict α := d.filter fun key _ => key != k

/-- The dictionary of a list of entries; of two with one key, the later counts. -/
def ofList (es : List (String × α)) : Dict α := es.foldl (fun d e => d.insert e.1 e.2) empty

/-- Whether there are no entries. -/
def isEmpty (d : Dict α) : Bool := d.entries.isEmpty

/-- The number of entries. -/
def size (d : Dict α) : Nat := d.entries.length

/-- The keys in ascending order. -/
def keys (d : Dict α) : List String := d.entries.map (·.1)

/-- Applies `f` to every value. -/
def map (f : α → β) (d : Dict α) : Dict β where
  entries := d.entries.map fun e => (e.1, f e.2)
  ascending := by simpa [Entries.Ascending, List.pairwise_map] using d.ascending

/-! ## Look-ups -/

@[simp] theorem get?_empty (k : String) : (∅ : Dict α).get? k = none := rfl

@[simp] theorem get?_insert (d : Dict α) (k q : String) (v : α) :
    (d.insert k v).get? q = if q = k then some v else d.get? q :=
  Entries.get?_insert k q v d.entries

@[simp] theorem get?_erase (d : Dict α) (k q : String) :
    (d.erase k).get? q = if q = k then none else d.get? q :=
  Entries.get?_filter_ne k q d.entries

theorem get?_filter (d : Dict α) (p : String → α → Bool) (k : String) :
    (d.filter p).get? k = (d.get? k).filter (p k) :=
  Entries.get?_filter d.ascending p k

theorem get?_map (f : α → β) (d : Dict α) (k : String) : (d.map f).get? k = (d.get? k).map f := by
  have hentries (es : List (String × α)) :
      Entries.get? k (es.map fun e => (e.1, f e.2)) = (Entries.get? k es).map f := by
    induction es with
    | nil => rfl
    | cons e rest ih => by_cases hk : k = e.1 <;> simp [Entries.get?, hk, ih]
  exact hentries d.entries

theorem isEmpty_insert (d : Dict α) (k : String) (v : α) : (d.insert k v).isEmpty = false := by
  rcases d with ⟨_ | ⟨e, es⟩, hes⟩
  · rfl
  · simp only [insert, isEmpty, Entries.insert]
    split
    · rfl
    · split <;> rfl

theorem mem_keys_iff {d : Dict α} {k : String} : k ∈ d.keys ↔ (d.get? k).isSome := by
  have hentries (es : List (String × α)) : k ∈ es.map (·.1) ↔ (Entries.get? k es).isSome := by
    induction es with
    | nil => simp [Entries.get?]
    | cons e rest ih =>
      by_cases hk : k = e.1
      · simp [Entries.get?, hk]
      · simpa [Entries.get?, hk] using ih
  exact hentries d.entries

theorem nodup_keys (d : Dict α) : d.keys.Nodup := by
  refine List.pairwise_map.2 (d.ascending.imp fun {a b} hlt heq => ?_)
  exact String.lt_irrefl b.1 (heq ▸ hlt)

theorem ext_get? {d e : Dict α} (h : ∀ k, d.get? k = e.get? k) : d = e := by
  cases d with
  | mk es hes =>
    cases e with
    | mk fs hfs =>
      cases Entries.ext_get? hes hfs h
      rfl

theorem insert_insert (d : Dict α) (k : String) (v w : α) : (d.insert k v).insert k w = d.insert k w := by
  refine ext_get? fun q => ?_
  rw [get?_insert, get?_insert, get?_insert]
  split <;> rfl

theorem ext_entries {d e : Dict α} (h : d.entries = e.entries) : d = e := by
  cases d; cases e; cases h; rfl

end Dict

end BareMetal
