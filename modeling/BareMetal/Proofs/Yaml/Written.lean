import BareMetal.Failure
import BareMetal.Proofs.Yaml.Paths
import BareMetal.Yaml.Block

/-!
# Reading what was written

A value is written without tags and without names, so the nodes of its text have neither: they are bare.
On bare nodes readings do not count anything, and are their results (`value_of_reads`). A reader undoes a
writer at `a` if, wherever bare nodes denote what is written of `a`, it reads `a` (`Undoes`); from
the readers and writers of its members follows that of a mapping, member by member (`Shown`).
-/

namespace BareMetal.Yaml

variable {α β : Type}

/-! ## Bare nodes -/

mutual

/-- Whether no node in it has a tag or is an alias. -/
def Node.isBare : Node → Bool
  | .scalar tag _ _ => tag.isNone
  | .sequence tag items => tag.isNone && areBare items
  | .mapping tag pairs => tag.isNone && pairsAreBare pairs
  | .alias _ => false

/-- Whether all nodes are bare. -/
def areBare : List Node → Bool
  | [] => true
  | n :: rest => n.isBare && areBare rest

/-- Whether all keys and values are bare. -/
def pairsAreBare : List (Node × Node) → Bool
  | [] => true
  | p :: rest => (p.1.isBare && p.2.isBare) && pairsAreBare rest

end

theorem isBare_of_areBare {ns : List Node} (h : areBare ns = true) : ∀ n ∈ ns, n.isBare = true := by
  induction ns with
  | nil => nofun
  | cons n ns ih =>
    obtain ⟨hn, hns⟩ := Bool.and_eq_true_iff.1 h
    exact List.forall_mem_cons.2 ⟨hn, ih hns⟩

theorem isBare_of_pairsAreBare {ps : List (Node × Node)} (h : pairsAreBare ps = true) :
    ∀ p ∈ ps, p.1.isBare = true ∧ p.2.isBare = true := by
  induction ps with
  | nil => nofun
  | cons p ps ih =>
    obtain ⟨hp, hps⟩ := Bool.and_eq_true_iff.1 h
    exact List.forall_mem_cons.2 ⟨Bool.and_eq_true_iff.1 hp, ih hps⟩

/-- The text holds the nodes that the value is written as: they have no tags and no names, and denote the
value. -/
def ReadsBack (text : String) (v : Value) : Prop :=
  ∃ y n, Document.ofText text = .ok y ∧ y.root = some n ∧ n.isBare = true ∧ y.valueOf n = .ok v

/-- What reads back is read as the value. -/
theorem ReadsBack.ofText {text : String} {v : Value} (h : ReadsBack text v) : Value.ofText text = .ok v := by
  obtain ⟨y, n, hy, hn, -, hv⟩ := h
  rw [Value.ofText, hy]
  show Reader.run (Reader.value true) .null y = _
  simp only [Reader.run, hn]
  exact hv

/-! ## Evaluation

In a proof, characters are evaluated much faster than the text that they make.
-/

/-- The tokens of a row of characters. -/
def tokensOf (cs : List Char) : Except Fault (List Token) := do
  let cs := match cs with
    | '\ufeff' :: rest => rest
    | cs => cs
  if !cs.all isAllowed then .error (.malformed "control characters are not allowed" 0 0)
  else
    let s ← Scanner.State.scanFrom (cs.length + 1) { cursor := ⟨cs, 0, 0, 0⟩ }
    return s.tokens

/-- The document that a row of characters holds. -/
def documentOf (cs : List Char) : Except Fault Document := do
  let tokens ← tokensOf cs
  let (root, s) ← (Parser.document (4 * tokens.length + 4)).run { tokens := tokens }
  let latest := s.nodes.mergeSort fun a b => b.1.order ≤ a.1.order
  return ⟨root, latest.map fun e => (e.1.id, e.2), s.size⟩

theorem ofText_ofList (cs : List Char) : Document.ofText (.ofList cs) = documentOf cs := by
  have htokens : Token.scan (.ofList cs) = tokensOf cs := by
    unfold Token.scan
    rw [String.toList_ofList]
    rfl
  unfold Document.ofText
  rw [htokens]
  rfl

/-- Whether what is written of a value reads back can be evaluated from its characters. -/
theorem readsBack_render {v : Value} {cs : List Char} (hcs : v.render = .ofList cs)
    (h : ((documentOf ('\n' :: cs)).toOption.any fun y => y.root.any fun n =>
      n.isBare && (y.valueOf n).toOption.any (Value.identical · v)) = true) :
    ReadsBack ("\n" ++ v.render) v := by
  have happend : String.ofList (['\n'] ++ cs) = "\n" ++ String.ofList cs := String.ofList_append
  have htext : "\n" ++ v.render = .ofList ('\n' :: cs) := hcs ▸ happend.symm
  obtain ⟨y, hy, h⟩ := (Option.any_eq_true _ _).1 h
  obtain ⟨n, hn, h⟩ := (Option.any_eq_true _ _).1 h
  obtain ⟨hbare, h⟩ := Bool.and_eq_true_iff.1 h
  obtain ⟨w, hw, h⟩ := (Option.any_eq_true _ _).1 h
  rw [htext]
  exact ⟨y, n, ofText_ofList _ ▸ ok_of_toOption hy, hn, hbare, Value.eq_of_identical h ▸ ok_of_toOption hw⟩

/-! ## Readings that are their results -/

theorem mapM_eq_pure {f : α → Read β} {as : List α} {bs : List β}
    (h : List.Forall₂ (fun a b => f a = pure b) as bs) : as.mapM f = pure bs := by
  induction h with
  | nil => rfl
  | cons hab _ ih => rw [List.mapM_cons, hab, pure_bind, ih, pure_bind]

theorem reads_of_valueOf {d : Document} {n : Node} {v : Value} (h : d.valueOf n = .ok v) :
    Reads (Reader.value true d Reader.depthLimit n) v := by
  change (fun p : Value × Nat => p.1) <$> Reader.value true d Reader.depthLimit n 0 = .ok v at h
  cases hr : Reader.value true d Reader.depthLimit n 0 with
  | error e => rw [hr] at h; cases h
  | ok p =>
    rw [hr] at h
    cases h
    exact ⟨0, p.2, hr⟩

/-- Of two pairs, the second has another key. -/
abbrev KeysDiffer (p q : Value × Value) : Prop := (p.1 == q.1) = false

theorem Reads.of_uniquePairs {key value : Node → Read Value} {ps : List (Node × Node)}
    {done qs : List (Value × Value)} (h : Reads (Reader.uniquePairs key value done ps) qs)
    (hdone : done.reverse.Pairwise KeysDiffer) :
    qs.Pairwise KeysDiffer ∧ ∃ rest, qs = done.reverse ++ rest ∧
      List.Forall₂ (fun p q => Reads (key p.1) q.1 ∧ Reads (value p.2) q.2) ps rest := by
  induction ps generalizing done with
  | nil =>
    rw [h.of_pure]
    exact ⟨hdone, [], (List.append_nil _).symm, .nil⟩
  | cons p ps ih =>
    unfold Reader.uniquePairs at h
    obtain ⟨k, hk, h⟩ := h.of_bind
    dsimp only at h
    split at h
    · obtain ⟨_, hthrow, -⟩ := h.of_bind
      exact absurd hthrow not_reads_throw
    · next hnew =>
      obtain ⟨v, hv, h⟩ := h.of_bind
      have hdone' : ((k, v) :: done).reverse.Pairwise KeysDiffer := by
        rw [List.reverse_cons, List.pairwise_append]
        refine ⟨hdone, List.pairwise_singleton .., fun q hq q' hq' => ?_⟩
        rw [List.mem_singleton.1 hq']
        exact Bool.eq_false_iff.2 fun heq =>
          hnew (List.any_eq_true.2 ⟨q, List.mem_reverse.1 hq, heq⟩)
      obtain ⟨hqs, rest, rfl, hrest⟩ := ih h hdone'
      exact ⟨hqs, (k, v) :: rest, by simp, .cons ⟨hk, hv⟩ hrest⟩

namespace Reader

variable {d : Document} {room : Nat} {n : Node} {v : Value} {read read' : Node → Read Value}

theorem ofStyle_of_reads {style : ScalarStyle} {text : String} (h : Reads (ofStyle style text) v) :
    ofStyle style text = pure v := by
  unfold ofStyle at h ⊢
  split
  · next hstyle =>
    rw [if_pos hstyle] at h
    generalize Meaning.ofPlain text = m at h ⊢
    cases m with
    | tooLarge => exact absurd h not_reads_throw
    | null | bool | int | float | text => exact h.of_pure ▸ rfl
  · next hstyle =>
    rw [if_neg hstyle] at h
    rw [h.of_pure]

/-- Whatever `read` reads off bare nodes, `read'` reads without counting. -/
abbrev Settles (read read' : Node → Read Value) : Prop :=
  ∀ n v, n.isBare = true → Reads (read n) v → read' n = pure v

theorem uniquePairs_of_reads (hread : Settles read read') {ps : List (Node × Node)}
    {done qs : List (Value × Value)} (hps : ∀ p ∈ ps, p.1.isBare = true ∧ p.2.isBare = true)
    (h : Reads (uniquePairs read read done ps) qs) : uniquePairs read' read' done ps = pure qs := by
  induction ps generalizing done with
  | nil => rw [uniquePairs, h.of_pure]
  | cons p ps ih =>
    obtain ⟨⟨hp₁, hp₂⟩, hps⟩ := List.forall_mem_cons.1 hps
    unfold uniquePairs at h ⊢
    obtain ⟨k, hk, h⟩ := h.of_bind
    rw [hread _ _ hp₁ hk, pure_bind]
    dsimp only at h ⊢
    split at h
    · obtain ⟨_, hthrow, -⟩ := h.of_bind
      exact absurd hthrow not_reads_throw
    · next hnew =>
      obtain ⟨v, hv, h⟩ := h.of_bind
      rw [if_neg hnew, hread _ _ hp₂ hv, pure_bind]
      exact ih hps h

theorem ofNode_of_reads {inner? inner?' : Option (Node → Read Value)} (tags : Bool)
    (hinner : ∀ read ∈ inner?, ∃ read' ∈ inner?', Settles read read') (hn : n.isBare = true)
    (h : Reads (ofNode true inner? n) v) : ofNode tags inner?' n = pure v := by
  cases n with
  | scalar tag style text =>
    obtain rfl := Option.isNone_iff_eq_none.1 hn
    exact ofStyle_of_reads h
  | sequence tag items =>
    obtain ⟨htag, hitems⟩ := Bool.and_eq_true_iff.1 hn
    obtain rfl := Option.isNone_iff_eq_none.1 htag
    cases inner? with
    | none => exact absurd h not_reads_throw
    | some read =>
      obtain ⟨read', rfl, hread⟩ := hinner read rfl
      obtain ⟨vs, hvs, rfl⟩ := Reads.of_map (r := items.mapM read) h
      have hitems' : List.Forall₂ (fun n w => read' n = pure w) items vs :=
        ((List.forall₂_and_left _ _).2 ⟨isBare_of_areBare hitems, hvs.of_mapM⟩).imp
          fun n w hnw => hread n w hnw.1 hnw.2
      show Value.seq <$> items.mapM read' = pure _
      rw [mapM_eq_pure hitems', map_pure]
  | mapping tag ps =>
    obtain ⟨htag, hps⟩ := Bool.and_eq_true_iff.1 hn
    obtain rfl := Option.isNone_iff_eq_none.1 htag
    cases inner? with
    | none => exact absurd h not_reads_throw
    | some read =>
      obtain ⟨read', rfl, hread⟩ := hinner read rfl
      obtain ⟨qs, hqs, rfl⟩ := Reads.of_map (r := uniquePairs read read [] ps) h
      show Value.map <$> uniquePairs read' read' [] ps = pure _
      rw [uniquePairs_of_reads hread (isBare_of_pairsAreBare hps) hqs, map_pure]
  | «alias» id => cases hn

theorem resolve_of_isBare (d : Document) (hn : n.isBare = true) : resolve d n = pure n :=
  (resolve_of_not_alias d fun id hid => by rw [hid] at hn; cases hn).1

/-- On bare nodes it makes no difference whether tags are kept. -/
theorem value_of_reads (tags : Bool) (hn : n.isBare = true) (h : Reads (value true d room n) v) :
    value tags d room n = pure v := by
  induction room generalizing n v with
  | zero =>
    rw [value, resolve_of_isBare d hn, pure_bind] at h ⊢
    exact ofNode_of_reads tags (by simp) hn h
  | succ room ih =>
    rw [value, resolve_of_isBare d hn, pure_bind] at h ⊢
    refine ofNode_of_reads tags (fun read hread => ?_) hn h
    cases hread
    exact ⟨_, rfl, fun n v hn h => ih hn h⟩

/-- How bare nodes denote values: as scalars, or as collections of what denotes their parts. -/
inductive Denotes (d : Document) : (room : Nat) → Node → Value → Prop
  | scalar {room : Nat} {style : ScalarStyle} {text : String} {v : Value} :
    Reads (ofStyle style text) v → Denotes d room (.scalar none style text) v
  | sequence {room : Nat} {items : List Node} {vs : List Value} : (∀ n ∈ items, n.isBare = true) →
    List.Forall₂ (fun n v => Reads (value true d room n) v) items vs →
    Denotes d (room + 1) (.sequence none items) (.seq vs)
  | mapping {room : Nat} {ps : List (Node × Node)} {qs : List (Value × Value)} :
    (∀ p ∈ ps, p.1.isBare = true ∧ p.2.isBare = true) → qs.Pairwise KeysDiffer →
    List.Forall₂ (fun p q => Reads (value true d room p.1) q.1 ∧ Reads (value true d room p.2) q.2) ps qs →
    Denotes d (room + 1) (.mapping none ps) (.map qs)

theorem denotes_of_reads (hn : n.isBare = true) (h : Reads (value true d room n) v) :
    Denotes d room n v := by
  have hnode : Reads (ofNode true (match room with
      | 0 => none
      | room + 1 => some (value true d room)) n) v := by
    cases room <;> rwa [value, resolve_of_isBare d hn, pure_bind] at h
  cases n with
  | scalar tag style text =>
    obtain rfl := Option.isNone_iff_eq_none.1 hn
    exact .scalar hnode
  | sequence tag items =>
    obtain ⟨htag, hitems⟩ := Bool.and_eq_true_iff.1 hn
    obtain rfl := Option.isNone_iff_eq_none.1 htag
    cases room with
    | zero => exact absurd hnode not_reads_throw
    | succ room =>
      obtain ⟨vs, hvs, rfl⟩ := Reads.of_map (r := items.mapM (value true d room)) hnode
      exact .sequence (isBare_of_areBare hitems) hvs.of_mapM
  | mapping tag ps =>
    obtain ⟨htag, hps⟩ := Bool.and_eq_true_iff.1 hn
    obtain rfl := Option.isNone_iff_eq_none.1 htag
    cases room with
    | zero => exact absurd hnode not_reads_throw
    | succ room =>
      obtain ⟨qs, hqs, rfl⟩ :=
        Reads.of_map (r := uniquePairs (value true d room) (value true d room) [] ps) hnode
      obtain ⟨hdiffer, rest, rfl, hrest⟩ := hqs.of_uniquePairs .nil
      exact .mapping (isBare_of_pairsAreBare hps) hdiffer hrest
  | «alias» id => cases hn

end Reader

/-! ## Readers and writers -/

/-- The reader undoes the writer at `a`: wherever bare nodes denote what is written of `a`, it reads
`a`. -/
def Undoes (r : Reader α) (write : α → Value) (a : α) : Prop :=
  ∀ ⦃d : Document⦄ ⦃room : Nat⦄ ⦃n : Node⦄, n.isBare = true →
    Reads (Reader.value true d room n) (write a) → r d room n = pure a

theorem undoes_value (v : Value) : Undoes (Reader.value false) id v :=
  fun _ _ _ hn h => Reader.value_of_reads false hn h

theorem eq_of_reads_str {style : ScalarStyle} {text s : String}
    (h : Reads (Reader.ofStyle style text) (.str s)) : text = s := by
  unfold Reader.ofStyle at h
  split at h
  · generalize Meaning.ofPlain text = m at h
    cases m with
    | tooLarge => exact absurd h not_reads_throw
    | text => exact (Value.str.inj h.of_pure).symm
    | null | bool | int | float => cases h.of_pure
  · exact (Value.str.inj h.of_pure).symm

theorem undoes_text (s : String) : Undoes Reader.text .str s := by
  intro d room n hn h
  cases Reader.denotes_of_reads hn h with
  | scalar hs => rw [Reader.text, Reader.resolve_of_isBare d hn, pure_bind, eq_of_reads_str hs]

theorem flag?_of_ofPlain {s : String} {b : Bool} (h : Meaning.ofPlain s = .bool b) :
    Meaning.flag? s.toList = some b := by
  unfold Meaning.ofPlain at h
  dsimp only at h
  split at h
  · cases h
  · split at h
    · next hb =>
      cases h
      exact hb
    · -- numbers are no truth values
      exfalso
      unfold Meaning.number? at h
      cases hwhole : (Meaning.whole? s.toList).bind Meaning.ofWhole with
      | some m =>
        rw [hwhole] at h
        obtain ⟨i, -, hi⟩ := Option.bind_eq_some_iff.1 hwhole
        unfold Meaning.ofWhole at hi
        split at hi
        · cases hi; cases h
        · split at hi
          · cases hi; cases h
          · cases hi
      | none =>
        rw [hwhole] at h
        dsimp only at h
        split at h
        · cases h
        · cases hfloat : Meaning.float? s.toList with
          | none => rw [hfloat] at h; cases h
          | some x => rw [hfloat] at h; cases h

theorem flag?_of_reads_bool {style : ScalarStyle} {text : String} {b : Bool}
    (h : Reads (Reader.ofStyle style text) (.bool b)) :
    style = .plain ∧ Meaning.flag? text.toList = some b := by
  unfold Reader.ofStyle at h
  split at h
  · next hstyle =>
    refine ⟨hstyle, flag?_of_ofPlain ?_⟩
    generalize Meaning.ofPlain text = m at h
    cases m with
    | tooLarge => exact absurd h not_reads_throw
    | bool b' => exact congrArg _ (Value.bool.inj h.of_pure).symm
    | null | text | int | float => cases h.of_pure
  · cases h.of_pure

theorem undoes_flag (b : Bool) : Undoes Reader.flag .bool b := by
  intro d room n hn h
  cases Reader.denotes_of_reads hn h with
  | scalar hs =>
    obtain ⟨rfl, hb⟩ := flag?_of_reads_bool hs
    rw [Reader.flag, Reader.resolve_of_isBare d hn, pure_bind]
    simp [hb]

/-- Scalars denote no collections. -/
theorem not_collection_of_reads {style : ScalarStyle} {text : String} {v : Value}
    (h : Reads (Reader.ofStyle style text) v) : (∀ vs, v ≠ .seq vs) ∧ ∀ qs, v ≠ .map qs := by
  unfold Reader.ofStyle at h
  split at h
  · generalize Meaning.ofPlain text = m at h
    cases m with
    | tooLarge => exact absurd h not_reads_throw
    | null | bool | int | float | text => simp [h.of_pure]
  · simp [h.of_pure]

theorem undoes_list {r : Reader α} {write : α → Value} {as : List α} (h : ∀ a ∈ as, Undoes r write a) :
    Undoes (Reader.list r) (fun as => .seq (as.map write)) as := by
  intro d room n hn hreads
  cases Reader.denotes_of_reads hn hreads with
  | scalar hs => exact absurd rfl ((not_collection_of_reads hs).1 _)
  | @sequence room items vs hitems hvs =>
    rw [Reader.list, Reader.resolve_of_isBare d hn, pure_bind]
    show items.mapM (r d room) = pure as
    have hboth : List.Forall₂ (fun n a => (n.isBare = true ∧ a ∈ as) ∧
        Reads (Reader.value true d room n) (write a)) items as := by
      have hmem := (List.forall₂_and_left (p := fun a => a ∈ as) _ _).2
        ⟨fun a ha => ha, (List.forall₂_map_right_iff.1 hvs).flip⟩
      exact ((List.forall₂_and_left _ _).2 ⟨hitems, hmem.flip⟩).imp
        fun n a hna => ⟨⟨hna.1, hna.2.1⟩, hna.2.2⟩
    exact mapM_eq_pure (hboth.imp fun n a hna => h a hna.1.2 hna.1.1 hna.2)

/-! ## Mappings -/

section Pairs

variable {ps : List (String × β)} {key : String} {b : β}

theorem mem_of_latest? (h : latest? key ps = some b) : (key, b) ∈ ps := by
  induction ps with
  | nil => cases h
  | cons p ps ih =>
    rw [latest?, Option.or_eq_some_iff] at h
    obtain hrest | ⟨-, hp⟩ := h
    · exact List.mem_cons_of_mem _ (ih hrest)
    · split at hp
      · next hkey =>
        cases hp
        exact hkey ▸ List.mem_cons_self
      · cases hp

theorem latest?_eq_none_iff : latest? key ps = none ↔ key ∉ ps.map (·.1) := by
  induction ps with
  | nil => simp [latest?]
  | cons p ps ih =>
    rw [latest?, Option.or_eq_none_iff, ih, List.map_cons, List.mem_cons, not_or, and_comm]
    simp [eq_comm]

/-- If no key occurs twice, every pair is found by its key. -/
theorem latest?_of_mem (hnodup : (ps.map (·.1)).Nodup) {p : String × β} (hp : p ∈ ps) :
    latest? p.1 ps = some p.2 := by
  induction ps with
  | nil => cases hp
  | cons q qs ih =>
    rw [List.map_cons, List.nodup_cons] at hnodup
    rw [latest?]
    rcases List.mem_cons.1 hp with rfl | hp
    · rw [latest?_eq_none_iff.2 hnodup.1, if_pos rfl, Option.none_or]
    · rw [ih hnodup.2 hp, Option.some_or]

/-- If no key occurs twice, there is at most one pair with a key. -/
theorem filter_key (hnodup : (ps.map (·.1)).Nodup) (key : String) :
    ps.filter (·.1 = key) = ((latest? key ps).map (key, ·)).toList := by
  induction ps with
  | nil => rfl
  | cons p ps ih =>
    rw [List.map_cons, List.nodup_cons] at hnodup
    rw [latest?]
    by_cases hkey : p.1 = key
    · have hnone : latest? key ps = none := latest?_eq_none_iff.2 (hkey ▸ hnodup.1)
      rw [List.filter_cons_of_pos (by simpa using hkey), ih hnodup.2, hnone, if_pos hkey]
      subst hkey
      rfl
    · rw [List.filter_cons_of_neg (by simpa using hkey), ih hnodup.2, if_neg hkey, Option.or_none]

end Pairs

theorem exists_forall₂ {R : α → β → Prop} {as : List α} (h : ∀ a ∈ as, ∃ b, R a b) :
    ∃ bs, List.Forall₂ R as bs := by
  induction as with
  | nil => exact ⟨[], .nil⟩
  | cons a as ih =>
    obtain ⟨⟨b, hb⟩, has⟩ := List.forall_mem_cons.1 h
    obtain ⟨bs, hbs⟩ := ih has
    exact ⟨b :: bs, .cons hb hbs⟩

/-- The dictionary of the pairs that are read, if these are the entries of a dictionary. -/
theorem ofList_mapM {ps : List (String × Node)} {r : Node → Read α} {dict : Dict α}
    (hread : ∀ p ∈ ps, ∃ a, dict.get? p.1 = some a ∧ r p.2 = pure a)
    (hkeys : ∀ key a, dict.get? key = some a → key ∈ ps.map (·.1)) :
    (do return Dict.ofList (← ps.mapM fun p => do return (p.1, ← r p.2)) : Read (Dict α)) =
      pure dict := by
  have hentries : ∀ p ∈ ps, ∃ e : String × α,
      e.1 = p.1 ∧ dict.get? e.1 = some e.2 ∧ r p.2 = pure e.2 := fun p hp => by
    obtain ⟨a, ha, hr⟩ := hread p hp
    exact ⟨(p.1, a), rfl, ha, hr⟩
  obtain ⟨es, hes⟩ := exists_forall₂ hentries
  have hmapM : (ps.mapM fun p => do return (p.1, ← r p.2) : Read (List (String × α))) = pure es :=
    mapM_eq_pure (hes.imp fun p e he => by rw [he.2.2, pure_bind, ← he.1])
  have hback : List.Forall₂ (fun e p => dict.get? e.1 = some e.2 ∧ e.1 = p.1) es ps :=
    (hes.imp fun p e he => (⟨he.2.1, he.1⟩ : dict.get? e.1 = some e.2 ∧ e.1 = p.1)).flip
  obtain ⟨hvalues, hnames⟩ := (List.forall₂_and_left _ _).1 hback
  replace hnames : es.map (·.1) = ps.map (·.1) := by
    rw [← List.forall₂_eq_eq_eq, List.forall₂_map_left_iff, List.forall₂_map_right_iff]
    exact hnames
  have hget : Dict.ofList es = dict := by
    refine Dict.ext_get? fun key => ?_
    rw [get?_ofList]
    cases hkey : latest? key es with
    | some a => exact (hvalues _ (mem_of_latest? hkey)).symm
    | none =>
      rw [latest?_eq_none_iff, hnames] at hkey
      exact (Option.eq_none_iff_forall_not_mem.2 fun a ha => hkey (hkeys key a ha)).symm
  rw [hmapM, pure_bind, hget]

/-- All keys are texts. -/
def TextKeys (qs : List (Value × Value)) : Prop := ∀ q ∈ qs, ∃ key, q.1 = .str key

@[simp] theorem textKeys_nil : TextKeys [] := nofun

@[simp] theorem textKeys_cons (key : String) (v : Value) (qs : List (Value × Value)) :
    TextKeys ((.str key, v) :: qs) ↔ TextKeys qs := by
  simp [TextKeys]

@[simp] theorem textKeys_append (ps qs : List (Value × Value)) :
    TextKeys (ps ++ qs) ↔ TextKeys ps ∧ TextKeys qs :=
  List.forall_mem_append

/-- The pairs of nodes say what the value says at its keys. -/
structure Shown (d : Document) (room : Nat) (ps : List (String × Node)) (v : Value) : Prop where
  nodup : (ps.map (·.1)).Nodup
  get : ∀ key, Option.Rel (fun n w => n.isBare = true ∧ Reads (Reader.value true d room n) w)
    (latest? key ps) (v.get? key)

section Mappings

variable {d : Document} {room : Nat} {n : Node} {v : Value}

theorem exists_fields {nodes : List (Node × Node)} {qs : List (Value × Value)}
    (hbare : ∀ p ∈ nodes, p.1.isBare = true ∧ p.2.isBare = true) (htext : TextKeys qs)
    (h : List.Forall₂ (fun p q => Reads (Reader.value true d room p.1) q.1 ∧
      Reads (Reader.value true d room p.2) q.2) nodes qs) :
    ∃ ps, (nodes.mapM fun p => do return (← Reader.text d room p.1, p.2)) = pure ps ∧
      List.Forall₂ (fun p q => q.1 = .str p.1 ∧ p.2.isBare = true ∧
        Reads (Reader.value true d room p.2) q.2) ps qs := by
  induction h with
  | nil => exact ⟨[], rfl, .nil⟩
  | @cons p q nodes qs hpq _ ih =>
    obtain ⟨hp, hnodes⟩ := List.forall_mem_cons.1 hbare
    obtain ⟨⟨key, hkey⟩, hqs⟩ := List.forall_mem_cons.1 htext
    obtain ⟨ps, hps, hrest⟩ := ih hnodes hqs
    refine ⟨(key, p.2) :: ps, ?_, .cons ⟨hkey, hp.2, hpq.2⟩ hrest⟩
    rw [List.mapM_cons, undoes_text key hp.1 (hkey ▸ hpq.1), hps]
    rfl

theorem shown_of_forall₂ {ps : List (String × Node)} {qs : List (Value × Value)}
    (hdiffer : qs.Pairwise KeysDiffer)
    (h : List.Forall₂ (fun p q => q.1 = .str p.1 ∧ p.2.isBare = true ∧
      Reads (Reader.value true d room p.2) q.2) ps qs) : Shown d room ps (.map qs) := by
  have hkeys : qs.map (·.1) = ps.map fun p => .str p.1 := by
    rw [← List.forall₂_eq_eq_eq, List.forall₂_map_left_iff, List.forall₂_map_right_iff]
    exact (h.imp fun p q hpq => hpq.1).flip
  have hnodup : (ps.map (·.1)).Nodup := by
    have hpairwise : (qs.map (·.1)).Pairwise fun v w => (v == w) = false :=
      List.pairwise_map.2 hdiffer
    rw [hkeys, List.pairwise_map] at hpairwise
    exact List.pairwise_map.2 (hpairwise.imp fun {p q} hpq => ne_of_beq_false (α := String) hpq)
  refine ⟨hnodup, fun key => ?_⟩
  clear hdiffer hkeys
  induction h with
  | nil => exact .none
  | @cons p q ps qs hpq _ ih =>
    rw [List.map_cons, List.nodup_cons] at hnodup
    obtain ⟨k, v⟩ := q
    obtain ⟨rfl, hp⟩ := hpq
    rw [latest?, Value.get?_map_cons]
    by_cases hkey : p.1 = key
    · rw [latest?_eq_none_iff.2 (hkey ▸ hnodup.1), if_pos hkey, if_pos hkey]
      exact .some hp
    · rw [if_neg hkey, if_neg hkey, Option.or_none]
      exact ih hnodup.2

/-- A reader of a mapping is given pairs of nodes that say what the mapping says. -/
theorem pairs_of_reads {qs : List (Value × Value)} (hn : n.isBare = true)
    (h : Reads (Reader.value true d room n) (.map qs)) (htext : TextKeys qs) :
    ∃ room' ps, Shown d room' ps (.map qs) ∧
      ∀ k : Nat → List (String × Node) → Read α, Reader.pairs k d room n = k room' ps := by
  cases Reader.denotes_of_reads hn h with
  | scalar hs => exact absurd rfl ((not_collection_of_reads hs).2 _)
  | @mapping room nodes qs hbare hdiffer hreads =>
    obtain ⟨ps, hps, hshown⟩ := exists_fields hbare htext hreads
    refine ⟨room, ps, shown_of_forall₂ hdiffer hshown, fun k => ?_⟩
    rw [Reader.pairs, Reader.resolve_of_isBare d hn, pure_bind]
    change (do k room (← nodes.mapM fun p => do return (← Reader.text d room p.1, p.2))) = k room ps
    rw [hps, pure_bind]

namespace Shown

variable {ps : List (String × Node)} {key : String} {r : Reader α} {write : α → Value} {a : α}

theorem latest?_of_none (h : Shown d room ps v) (hkey : v.get? key = none) :
    latest? key ps = none := by
  have hrel := h.get key
  rw [hkey] at hrel
  generalize latest? key ps = found at hrel
  cases hrel
  rfl

theorem latest?_of_some {w : Value} (h : Shown d room ps v) (hkey : v.get? key = some w) :
    ∃ m, latest? key ps = some m ∧ m.isBare = true ∧ Reads (Reader.value true d room m) w := by
  have hrel := h.get key
  rw [hkey] at hrel
  generalize latest? key ps = found at hrel ⊢
  cases hrel with
  | some hm => exact ⟨_, rfl, hm⟩

theorem field?_of_none {r : Node → Read α} (h : Shown d room ps v) (hkey : v.get? key = none) :
    Reader.field? ps key r = pure none := by
  rw [Reader.field?, filter_key h.nodup, h.latest?_of_none hkey]
  rfl

theorem field?_of_some (h : Shown d room ps v) (hkey : v.get? key = some (write a))
    (hr : Undoes r write a) : Reader.field? ps key (r d room) = pure (some a) := by
  obtain ⟨m, hm, hbare, hreads⟩ := h.latest?_of_some hkey
  rw [Reader.field?, filter_key h.nodup, hm]
  show some <$> r d room m = _
  rw [hr hbare hreads, map_pure]

/-- The dictionary of the pairs with some of the keys, if the value says at these keys what is written
of the entries of a dictionary. -/
theorem ofList_filter (h : Shown d room ps v) (keep : String → Bool) {dict : Dict α}
    (hkeep : ∀ key, keep key = true → v.get? key = (dict.get? key).map write)
    (hdrop : ∀ key a, dict.get? key = some a → keep key = true)
    (hr : ∀ key a, dict.get? key = some a → Undoes r write a) :
    (do return Dict.ofList (← (ps.filter fun p => keep p.1).mapM fun p => do
      return (p.1, ← r d room p.2)) : Read (Dict α)) = pure dict := by
  refine ofList_mapM (fun p hp => ?_) fun key a ha => ?_
  · obtain ⟨hp, hpkeep⟩ := List.mem_filter.1 hp
    have hrel := h.get p.1
    rw [latest?_of_mem h.nodup hp, hkeep p.1 hpkeep] at hrel
    cases ha : dict.get? p.1 with
    | none => rw [ha] at hrel; cases hrel
    | some a =>
      rw [ha] at hrel
      cases hrel with
      | some hpa => exact ⟨a, rfl, hr p.1 a ha hpa.1 hpa.2⟩
  · obtain ⟨m, hm, -⟩ := h.latest?_of_some ((hkeep key (hdrop key a ha)).trans (congrArg _ ha))
    have hmem : (key, m) ∈ ps.filter fun p => keep p.1 :=
      List.mem_filter.2 ⟨mem_of_latest? hm, hdrop key a ha⟩
    exact List.mem_map_of_mem hmem

end Shown

end Mappings

end BareMetal.Yaml
