import BareMetal.Proofs.Json.Canonical

/-!
# Forms that read what they write

A form undoes its writing at `a` if whatever restates what it writes of `a` is read as `a`
(`Form.Undoes`). The form of a record does if its members do one by one (`Fields.Undoes`): what is left
out is the default, and what is written is read under the same key, in whatever order the members come.
So nothing is lost, and different values are not written alike (`Form.lossless`).
-/

namespace BareMetal.Json

variable {σ α β : Type} {n : Nat}

/-! ## Forms -/

/-- Whatever restates what the form writes of `a` is read as `a` if more than `n` levels of nesting are
left. -/
structure Form.Undoes (n : Nat) (f : Form α) (a : α) : Prop where
  tidy : (f.encode a).Tidy
  reads {j : Json} (hj : j.Restates (f.encode a)) {room : Nat} (hroom : n < room) :
    f.decode room (Draft.ofJson j) = .ok a

namespace Form

variable {f : Form α} {a b : α} {j : Json}

/-- A scalar that is read as the value for which it is written. -/
theorem undoes_of_isScalar (hscalar : (f.encode a).isScalar)
    (hread : ∀ room, f.decode room (Draft.ofJson (f.encode a)) = .ok a) : f.Undoes n a where
  tidy := by cases h : f.encode a <;> simp_all [Tidy, isScalar]
  reads hj room _ := by rw [hj.eq_of_isScalar hscalar, hread]

theorem undoes_text (s : String) : text.Undoes n s := undoes_of_isScalar rfl fun _ => rfl

theorem undoes_flag (b : Bool) : flag.Undoes n b := undoes_of_isScalar rfl fun _ => rfl

theorem undoes_int32 (i : Int32) : int32.Undoes n i := by
  refine undoes_of_isScalar rfl fun room => ?_
  have hfits : -2 ^ 31 ≤ i.toInt ∧ i.toInt ≤ 2 ^ 31 - 1 := ⟨i.le_toInt, by have := i.toInt_lt; omega⟩
  show Int32.ofInt <$> Decoder.whole (-2 ^ 31) (2 ^ 31 - 1) room (.scalar (.ok (.int i.toInt)) none) = _
  rw [Decoder.whole, Decoder.scalar]
  dsimp only
  rw [if_pos hfits]
  exact congrArg Except.ok i.ofInt_toInt

theorem undoes_byte (b : UInt8) : byte.Undoes n b := by
  refine undoes_of_isScalar rfl fun room => ?_
  have hfits : (0 : Int) ≤ b.toNat ∧ (b.toNat : Int) ≤ 255 := by have := b.toNat_lt; omega
  show (fun i : Int => i.toNat.toUInt8) <$> Decoder.whole 0 255 room (.scalar (.ok (.int b.toNat)) none) = _
  rw [Decoder.whole, Decoder.scalar]
  dsimp only
  rw [if_pos hfits]
  exact congrArg Except.ok b.ofNat_toNat

theorem encode_float {x : Float} (h : x.isFinite) : float.encode x = .float x := if_pos h

theorem undoes_float {x : Float} (h : x.isFinite) : float.Undoes n x := by
  refine undoes_of_isScalar ?_ fun room => ?_ <;> rw [encode_float h] <;> rfl

theorem undoes_choice {name : α → String} {named : String → Option α} (h : named (name a) = some a) :
    (choice name named).Undoes n a := by
  refine undoes_of_isScalar rfl fun room => ?_
  show Decoder.choice named room (.scalar (.ok (.str (name a))) none) = _
  rw [Decoder.choice, Decoder.scalar]
  dsimp only
  rw [h]

theorem undoes_list {as : List α} (h : ∀ a ∈ as, f.Undoes n a) : f.list.Undoes (n + 1) as where
  tidy := by
    show TidyItems (as.map f.encode)
    rw [tidyItems_iff]
    intro j hj
    obtain ⟨a, ha, rfl⟩ := List.mem_map.1 hj
    exact (h a ha).tidy
  reads {j} hj {room} hroom := by
    obtain ⟨items, rfl, hitems⟩ := Restates.arr hj
    obtain ⟨room, rfl⟩ : ∃ k, room = k + 2 := Nat.exists_eq_add_of_le' (by omega)
    show Decoder.listFrom (f.decode (room + 1)) none (Draft.ofItems items) = .ok as
    clear hj
    induction as generalizing items with
    | nil =>
      cases hitems
      rfl
    | cons a as ih =>
      cases hitems with
      | cons hj hitems =>
        obtain ⟨ha, has⟩ := List.forall_mem_cons.1 h
        rw [Draft.ofItems, Decoder.listFrom, ha.reads hj (by omega), ih has _ hitems]
        rfl

/-- Members that are read as the values of a dictionary are read as the part of it under their keys. -/
theorem dictFrom_ofMembers {read : Draft → Except Fault α} {members : List (String × Json)} {d : Dict α}
    (h : ∀ e ∈ members, ∃ a, d.get? e.1 = some a ∧ read (Draft.ofJson e.2) = .ok a) (done : Dict α) :
    ∃ d', Decoder.dictFrom read none done (Draft.ofMembers members) = .ok d' ∧
      ∀ key, d'.get? key = if key ∈ members.map (·.1) then d.get? key else done.get? key := by
  induction members generalizing done with
  | nil => exact ⟨done, rfl, fun key => rfl⟩
  | cons e members ih =>
    obtain ⟨⟨a, ha, hread⟩, hrest⟩ := List.forall_mem_cons.1 h
    obtain ⟨d', hd', hget⟩ := ih hrest (done.insert e.1 a)
    refine ⟨d', ?_, fun key => ?_⟩
    · rw [Draft.ofMembers, Decoder.dictFrom]
      simp only [hread]
      exact hd'
    · rw [hget, Dict.get?_insert]
      by_cases hkey : key = e.1
      · simp [hkey, ha]
      · simp only [List.map_cons, List.mem_cons, hkey, false_or, if_false]

theorem undoes_dict {d : Dict α} (h : ∀ key a, d.get? key = some a → f.Undoes n a) :
    f.dict.Undoes (n + 1) d := by
  have hunique : UniqueKeys (d.map f.encode).entries := Dict.nodup_keys _
  have hget (key : String) : (Json.obj (d.map f.encode).entries).get? key = (d.get? key).map f.encode := by
    rw [get?_of_uniqueKeys hunique]
    exact Dict.get?_map f.encode d key
  refine ⟨tidy_obj_iff.2 ⟨hunique, fun e he => ?_⟩, fun {j} hj {room} hroom => ?_⟩
  · have hvalue := get?_of_mem hunique he
    rw [hget] at hvalue
    obtain ⟨a, ha, hvalue⟩ := Option.map_eq_some_iff.1 hvalue
    rw [← hvalue]
    exact (h _ a ha).tidy
  · obtain ⟨members, rfl, hmembers, hsame⟩ := Restates.obj hj
    obtain ⟨room, rfl⟩ : ∃ k, room = k + 2 := Nat.exists_eq_add_of_le' (by omega)
    show Decoder.dictFrom (f.decode (room + 1)) none ∅ (Draft.ofMembers members) = .ok d
    have hread : ∀ e ∈ members, ∃ a, d.get? e.1 = some a ∧
        f.decode (room + 1) (Draft.ofJson e.2) = .ok a := by
      intro e he
      have hsame := hsame e.1
      rw [get?_of_mem hmembers he] at hsame
      obtain ⟨v, hv, hrestates⟩ := hsame.exists_right
      rw [hget] at hv
      obtain ⟨a, ha, rfl⟩ := Option.map_eq_some_iff.1 hv
      exact ⟨a, ha, (h _ a ha).reads hrestates (by omega)⟩
    obtain ⟨d', hd', hlook⟩ := dictFrom_ofMembers hread ∅
    refine hd'.trans (congrArg Except.ok (Dict.ext_get? fun key => ?_))
    rw [hlook]
    split
    · rfl
    · next hnot =>
      have hsame := hsame key
      rw [get?_eq_none_of_not_mem hnot, hget] at hsame
      exact (Option.map_eq_none_iff.1 hsame.eq_none_right).symm

end Form

/-! ## Members -/

/-- What the fields write of `s` is read as `a`, wherever it stands among other members. -/
structure Fields.Undoes (n : Nat) (fs : Fields σ α) (s : σ) (a : α) : Prop where
  keys : ((fs.encode s).map (·.1)).Sublist fs.record.keys
  tidy : ∀ e ∈ fs.encode s, e.2.Tidy
  gives {j : Json} (hunique : fs.record.keys.Nodup)
    (hj : ∀ key ∈ fs.record.keys, Matches (j.get? key) ((Json.obj (fs.encode s)).get? key)) :
    fs.record.Gives n j a

namespace Fields

variable {s : σ} {a : α} {key : String}

theorem undoes_pure (a : α) : (pure a : Fields σ α).Undoes n s a where
  keys := .refl _
  tidy := nofun
  gives _ _ := Record.gives_pure a

theorem Undoes.get?_eq_none {fs : Fields σ α} (h : fs.Undoes n s a) (hkey : key ∉ fs.record.keys) :
    (Json.obj (fs.encode s)).get? key = none :=
  get?_eq_none_of_not_mem fun hmem => hkey (h.keys.subset hmem)

theorem Undoes.seq {fs : Fields σ (α → β)} {gs : Fields σ α} {g : α → β} (hf : fs.Undoes n s g)
    (hg : gs.Undoes n s a) : (fs <*> gs).Undoes n s (g a) where
  keys := by
    show ((fs.encode s ++ gs.encode s).map (·.1)).Sublist (fs.record.keys ++ gs.record.keys)
    rw [List.map_append]
    exact hf.keys.append hg.keys
  tidy e he := (List.mem_append.1 he).elim (hf.tidy e) (hg.tidy e)
  gives {j} hunique hj := by
    obtain ⟨hfs, hgs, hdisjoint⟩ := List.nodup_append.1 hunique
    refine Record.Gives.seq (hf.gives hfs fun key hkey => ?_) (hg.gives hgs fun key hkey => ?_)
    · have hj := hj key (List.mem_append_left _ hkey)
      have hnot : key ∉ gs.record.keys := fun h => hdisjoint key hkey key h rfl
      rwa [show (fs <*> gs).encode s = fs.encode s ++ gs.encode s from rfl, get?_append,
        hg.get?_eq_none hnot, Option.none_or] at hj
    · have hj := hj key (List.mem_append_right _ hkey)
      have hnot : key ∉ fs.record.keys := fun h => hdisjoint key h key hkey rfl
      rwa [show (fs <*> gs).encode s = fs.encode s ++ gs.encode s from rfl, get?_append,
        hf.get?_eq_none hnot, Option.or_none] at hj

theorem Undoes.map {fs : Fields σ α} (g : α → β) (h : fs.Undoes n s a) : (g <$> fs).Undoes n s (g a) :=
  (undoes_pure g).seq h

/-- A member that is left out only if it has its default. -/
theorem undoes_member {d : Decoder α} {default : α} (write : σ → Option Json)
    (habsent : write s = none → a = default)
    (hpresent : ∀ v, write s = some v → v.Tidy ∧
      ∀ {j : Json}, j.Restates v → ∀ {room : Nat}, n < room → d room (Draft.ofJson j) = .ok a) :
    (⟨.withDefault key default d, fun s => some? key (write s)⟩ : Fields σ α).Undoes n s a where
  keys := by
    show ((some? key (write s)).map (·.1)).Sublist [key]
    cases write s with
    | none => exact List.nil_sublist _
    | some v => exact .refl _
  tidy e he := by
    obtain ⟨v, hv, rfl⟩ := Option.map_eq_some_iff.1 (Option.mem_toList.1 he)
    exact (hpresent v hv).1
  gives {j} _ hj := by
    have hj := hj key List.mem_cons_self
    rw [get?_some?, if_pos rfl] at hj
    cases hwrite : write s with
    | none =>
      rw [hwrite] at hj
      rw [habsent hwrite]
      exact Record.gives_withDefault_absent hj.eq_none_left
    | some v =>
      rw [hwrite] at hj
      obtain ⟨w, hw, hrestates⟩ := hj.exists_left
      exact Record.gives_withDefault_present hw fun room => (hpresent v hwrite).2 hrestates

theorem undoes_withDefault {get : σ → α} {default : α} {f : Form α} (h : f.Undoes n (get s)) :
    (withDefault key get default f).Undoes n s (get s) :=
  undoes_member (fun s => some (f.encode (get s))) nofun fun _ hv =>
    Option.some.inj hv ▸ ⟨h.tidy, h.reads⟩

theorem undoes_optional {get : σ → Option α} {f : Form α}
    (h : ∀ a, get s = some a → f.Undoes n a ∧ (f.encode a).isNull = false) :
    (optional key get f).Undoes n s (get s) := by
  refine undoes_member (fun s => (get s).map f.encode) Option.map_eq_none_iff.1 fun v hv => ?_
  obtain ⟨a, ha, rfl⟩ := Option.map_eq_some_iff.1 hv
  obtain ⟨hundoes, hnull⟩ := h a ha
  refine ⟨hundoes.tidy, fun {j} hj {room} hroom => ?_⟩
  rw [Record.optional_of_not_null (hj.isNull_eq.trans hnull), hundoes.reads hj hroom, ha]
  rfl

theorem undoes_items {get : σ → List α} {f : Form α} (h : ∀ a ∈ get s, f.Undoes n a) :
    (items key get f).Undoes (n + 1) s (get s) := by
  refine undoes_member (fun s => if (get s).isEmpty then none else some (f.list.encode (get s)))
    (fun hempty => ?_) fun v hv => ?_
  · simpa using hempty
  · obtain ⟨-, hv⟩ := Option.ite_none_left_eq_some.1 hv
    cases hv
    have hundoes := Form.undoes_list h
    exact ⟨hundoes.tidy, hundoes.reads⟩

theorem undoes_entries {get : σ → Dict α} {f : Form α}
    (h : ∀ key a, (get s).get? key = some a → f.Undoes n a) :
    (entries key get f).Undoes (n + 1) s (get s) := by
  refine undoes_member (fun s => if (get s).isEmpty then none else some (f.dict.encode (get s)))
    (fun hempty => ?_) fun v hv => ?_
  · have hempty : (get s).isEmpty := by simpa using hempty
    exact Dict.ext_entries (List.isEmpty_iff.1 hempty)
  · obtain ⟨-, hv⟩ := Option.ite_none_left_eq_some.1 hv
    cases hv
    have hundoes := Form.undoes_dict h
    exact ⟨hundoes.tidy, hundoes.reads⟩

theorem undoes_text? {get : σ → Option String} : (optional key get .text).Undoes n s (get s) :=
  undoes_optional fun t _ => ⟨Form.undoes_text t, rfl⟩

theorem undoes_float? {get : σ → Option Float} (h : ∀ x, get s = some x → x.isFinite) :
    (optional key get .float).Undoes n s (get s) :=
  undoes_optional fun x hx => ⟨Form.undoes_float (h x hx), by rw [Form.encode_float (h x hx)]; rfl⟩

theorem undoes_texts {get : σ → List String} : (items key get .text).Undoes (n + 1) s (get s) :=
  undoes_items fun t _ => Form.undoes_text t

theorem undoes_textEntries {get : σ → Dict String} : (entries key get .text).Undoes (n + 1) s (get s) :=
  undoes_entries fun _ t _ => Form.undoes_text t

theorem undoes_required {get : σ → α} {f : Form α} (h : f.Undoes n (get s)) :
    (required key get f).Undoes n s (get s) where
  keys := .refl _
  tidy := List.forall_mem_singleton.2 h.tidy
  gives {j} _ hj := by
    have hj := hj key List.mem_cons_self
    rw [show (required key get f).encode s = some? key (some (f.encode (get s))) from rfl, get?_some?,
      if_pos rfl] at hj
    obtain ⟨v, hv, hrestates⟩ := hj.exists_left
    exact Record.gives_required hv fun room => h.reads hrestates

end Fields

/-! ## Records -/

theorem Form.undoes_record {fs : Fields σ σ} {s : σ} (h : fs.Undoes n s s)
    (hkeys : fs.record.keys.Nodup) : (Form.record fs).Undoes (n + 1) s where
  tidy := tidy_obj_iff.2 ⟨h.keys.nodup hkeys, h.tidy⟩
  reads {j} hj {room} hroom := by
    obtain ⟨members, rfl, hunique, hsame⟩ := Restates.obj hj
    exact (h.gives hkeys fun key _ => hsame key).strict hunique hroom

/-! ## Nothing is lost -/

/-- The form loses nothing of the values with the property: what it writes is read back, and so is whatever
restates it, in particular its canonical form; and different values are not written as the same data. -/
structure Form.Lossless (f : Form α) (proper : α → Prop) : Prop where
  written {a : α} (ha : proper a) : Json.decode f.decode (f.encode a) = .ok a
  canonical {a : α} (ha : proper a) : Json.decode f.decode (f.encode a).canonical = .ok a
  restated {a : α} (ha : proper a) {j : Json} (hj : j.Restates (f.encode a)) :
    Json.decode f.decode j = .ok a
  injective {a b : α} (ha : proper a) (hb : proper b)
    (h : (f.encode a).canonical = (f.encode b).canonical) : a = b

theorem Form.lossless {f : Form α} {proper : α → Prop} (h : ∀ a, proper a → f.Undoes n a)
    (hn : n < depthLimit) : f.Lossless proper := by
  have hrestated {a : α} (ha : proper a) {j : Json} (hj : j.Restates (f.encode a)) :
      Json.decode f.decode j = .ok a := (h a ha).reads hj hn
  have hwritten {a : α} (ha : proper a) : (f.encode a).Restates (f.encode a) := (h a ha).tidy.restates
  refine ⟨fun ha => hrestated ha (hwritten ha), fun ha => hrestated ha (restates_canonical _), hrestated,
    fun {a b} ha hb hsame => ?_⟩
  have hread := hrestated hb ⟨(h a ha).tidy, hsame⟩
  rw [hrestated ha (hwritten ha)] at hread
  exact Except.ok.inj hread

end BareMetal.Json
