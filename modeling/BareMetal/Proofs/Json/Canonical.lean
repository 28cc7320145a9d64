import BareMetal.Dict
import BareMetal.Proofs.Json.Records
import Mathlib.Data.List.Forall2

/-!
# Values that denote the same data

Two values denote the same data if their canonical forms agree. A value restates another one
(`Json.Restates`) if it denotes the same data and no object in it has a key twice: then it is the same
value, up to the order of members. The canonical form of a value without repeated keys restates it.
-/

namespace BareMetal.Json

variable {j k : Json} {members done : List (String × Json)} {key : String} {e : String × Json}

/-! ## Canonical members -/

theorem insertMember_eq (key : String) (v : Json) (members : List (String × Json)) :
    insertMember key v members = Dict.Entries.insert key v members := by
  induction members with
  | nil => rfl
  | cons e members ih => rw [insertMember, Dict.Entries.insert, ih]

theorem ascending_canonicalMembers (hdone : Dict.Entries.Ascending done) :
    Dict.Entries.Ascending (canonicalMembers members done) := by
  induction members generalizing done with
  | nil => exact hdone
  | cons e members ih =>
    rw [canonicalMembers, insertMember_eq]
    exact ih (Dict.Entries.ascending_insert _ _ hdone)

/-- At every key the canonical members say in canonical form what the members say. -/
theorem get?_canonicalMembers (key : String) :
    Dict.Entries.get? key (canonicalMembers members done) =
      (((Json.obj members).get? key).map canonical).or (Dict.Entries.get? key done) := by
  induction members generalizing done with
  | nil => rfl
  | cons e members ih =>
    rw [canonicalMembers, insertMember_eq, ih, Dict.Entries.get?_insert, get?_cons, Option.map_or,
      Option.or_assoc]
    congr 1
    by_cases hkey : e.1 = key
    · rw [if_pos hkey.symm, if_pos hkey]
      rfl
    · rw [if_neg (Ne.symm hkey), if_neg hkey]
      rfl

theorem mem_canonicalMembers (h : e ∈ canonicalMembers members done) :
    (∃ e' ∈ members, e.2 = e'.2.canonical) ∨ e ∈ done := by
  induction members generalizing done with
  | nil => exact .inr h
  | cons e' members ih =>
    rw [canonicalMembers, insertMember_eq] at h
    rcases ih h with ⟨e'', he'', hvalue⟩ | hdone
    · exact .inl ⟨e'', List.mem_cons_of_mem _ he'', hvalue⟩
    · rcases Dict.Entries.mem_insert hdone with rfl | hdone
      · exact .inl ⟨e', List.mem_cons_self, rfl⟩
      · exact .inr hdone

theorem uniqueKeys_of_ascending (h : Dict.Entries.Ascending members) : UniqueKeys members :=
  Dict.nodup_keys ⟨members, h⟩

theorem get?_of_uniqueKeys (h : UniqueKeys members) (key : String) :
    (Json.obj members).get? key = Dict.Entries.get? key members := by
  induction members with
  | nil => rfl
  | cons e members ih =>
    obtain ⟨hnot, hrest⟩ := List.nodup_cons.1 h
    rw [get?_cons, Dict.Entries.get?, ih hrest]
    by_cases hkey : e.1 = key
    · rw [if_pos hkey, if_pos hkey.symm, ← ih hrest, get?_eq_none_of_not_mem (hkey ▸ hnot), Option.none_or]
    · rw [if_neg hkey, if_neg (Ne.symm hkey), Option.or_none]

theorem mem_of_get? {v : Json} (h : (Json.obj members).get? key = some v) : (key, v) ∈ members := by
  induction members with
  | nil => cases h
  | cons e members ih =>
    rw [get?_cons, Option.or_eq_some_iff] at h
    rcases h with h | ⟨-, h⟩
    · exact List.mem_cons_of_mem _ (ih h)
    · obtain ⟨rfl, hv⟩ := Option.ite_none_right_eq_some.1 h
      cases hv
      exact List.mem_cons_self

theorem get?_of_mem (h : UniqueKeys members) (he : e ∈ members) :
    (Json.obj members).get? e.1 = some e.2 := by
  have hmem : e ∈ members.filter (·.1 = e.1) := List.mem_filter.2 ⟨he, by simp⟩
  rw [filter_key h, Option.mem_toList, Option.map_eq_some_iff] at hmem
  obtain ⟨v, hv, heq⟩ := hmem
  rw [hv, ← heq]

theorem canonicalItems_eq_map (items : List Json) : canonicalItems items = items.map canonical := by
  induction items with
  | nil => rfl
  | cons j items ih => rw [canonicalItems, ih, List.map_cons]

/-! ## Repeated keys -/

mutual

/-- No object in the value has a key twice. -/
def Tidy : Json → Prop
  | .arr items => TidyItems items
  | .obj members => UniqueKeys members ∧ TidyMembers members
  | _ => True

/-- No object in one of the items has a key twice. -/
def TidyItems : List Json → Prop
  | [] => True
  | j :: items => Tidy j ∧ TidyItems items

/-- No object in the value of a member has a key twice. -/
def TidyMembers : List (String × Json) → Prop
  | [] => True
  | e :: members => Tidy e.2 ∧ TidyMembers members

end

theorem tidyItems_iff {items : List Json} : TidyItems items ↔ ∀ j ∈ items, j.Tidy := by
  induction items with
  | nil => simp [TidyItems]
  | cons j items ih => rw [TidyItems, ih, List.forall_mem_cons]

theorem tidyMembers_iff : TidyMembers members ↔ ∀ e ∈ members, e.2.Tidy := by
  induction members with
  | nil => simp [TidyMembers]
  | cons e members ih => rw [TidyMembers, ih, List.forall_mem_cons]

theorem tidy_obj_iff : (Json.obj members).Tidy ↔ UniqueKeys members ∧ ∀ e ∈ members, e.2.Tidy := by
  rw [Tidy, tidyMembers_iff]

theorem Tidy.of_get? {v : Json} (h : ∀ e ∈ members, e.2.Tidy) (hv : (Json.obj members).get? key = some v) :
    v.Tidy :=
  h _ (mem_of_get? hv)

mutual

theorem tidy_canonical : ∀ j : Json, j.canonical.Tidy
  | .null | .bool _ | .int _ | .float _ | .str _ => trivial
  | .arr items => tidyItems_iff.2 (tidy_canonicalItems items)
  | .obj members => by
    refine tidy_obj_iff.2 ⟨uniqueKeys_of_ascending (ascending_canonicalMembers .nil), fun e he => ?_⟩
    obtain ⟨e', he', hvalue⟩ | hnil := mem_canonicalMembers he
    · rw [hvalue]
      exact tidy_canonicalValues members e' he'
    · cases hnil

theorem tidy_canonicalItems : ∀ items : List Json, ∀ j ∈ canonicalItems items, j.Tidy
  | [] => nofun
  | j :: items => by
    rw [canonicalItems]
    exact List.forall_mem_cons.2 ⟨tidy_canonical j, tidy_canonicalItems items⟩

theorem tidy_canonicalValues : ∀ members : List (String × Json), ∀ e ∈ members, e.2.canonical.Tidy
  | [] => nofun
  | e :: members => List.forall_mem_cons.2 ⟨tidy_canonical e.2, tidy_canonicalValues members⟩

end

mutual

theorem canonical_canonical : ∀ j : Json, j.canonical.canonical = j.canonical
  | .null | .bool _ | .int _ | .float _ | .str _ => rfl
  | .arr items => by rw [canonical, canonical, canonicalItems_canonicalItems items]
  | .obj members => by
    have hascending : Dict.Entries.Ascending (canonicalMembers members []) := ascending_canonicalMembers .nil
    rw [canonical, canonical]
    refine congrArg Json.obj (Dict.Entries.ext_get? (ascending_canonicalMembers .nil) hascending fun key => ?_)
    rw [get?_canonicalMembers, get?_of_uniqueKeys (uniqueKeys_of_ascending hascending),
      get?_canonicalMembers]
    cases hv : (Json.obj members).get? key with
    | none => rfl
    | some v => exact congrArg some (canonical_canonicalValues members _ (mem_of_get? hv))

theorem canonicalItems_canonicalItems :
    ∀ items : List Json, canonicalItems (canonicalItems items) = canonicalItems items
  | [] => rfl
  | j :: items => by
    rw [canonicalItems, canonicalItems, canonical_canonical j, canonicalItems_canonicalItems items]

theorem canonical_canonicalValues :
    ∀ members : List (String × Json), ∀ e ∈ members, e.2.canonical.canonical = e.2.canonical
  | [] => nofun
  | e :: members => List.forall_mem_cons.2 ⟨canonical_canonical e.2, canonical_canonicalValues members⟩

end

/-! ## Restatements -/

/-- The value says what the other one says: it denotes the same data, and no object in it has a key
twice. -/
structure Restates (j k : Json) : Prop where
  tidy : j.Tidy
  same : j.canonical = k.canonical

theorem Tidy.restates (h : j.Tidy) : j.Restates j := ⟨h, rfl⟩

theorem restates_canonical (j : Json) : j.canonical.Restates j := ⟨tidy_canonical j, canonical_canonical j⟩

/-- An object without repeated keys restates another one that says the same at every key. -/
theorem restates_of_get? {members' : List (String × Json)} (hunique : UniqueKeys members')
    (htidy : (Json.obj members).Tidy)
    (h : ∀ key, (Json.obj members').get? key = (Json.obj members).get? key) :
    (Json.obj members').Restates (.obj members) where
  tidy := tidy_obj_iff.2 ⟨hunique, fun e he =>
    Tidy.of_get? (tidy_obj_iff.1 htidy).2 ((h e.1).symm.trans (get?_of_mem hunique he))⟩
  same := by
    rw [canonical, canonical]
    refine congrArg Json.obj (Dict.Entries.ext_get? (ascending_canonicalMembers .nil)
      (ascending_canonicalMembers .nil) fun key => ?_)
    rw [get?_canonicalMembers, get?_canonicalMembers, h key]

/-- Whether the value is neither an array nor an object. -/
def isScalar : Json → Bool
  | .arr _ | .obj _ => false
  | _ => true

/-- What is said at a key, on either side, is said on the other side as well. -/
abbrev Matches (v? w? : Option Json) : Prop := Option.Rel Restates v? w?

theorem Matches.exists_left {v? : Option Json} {w : Json} (h : Matches v? (some w)) :
    ∃ v, v? = some v ∧ v.Restates w := by
  cases h with
  | some h => exact ⟨_, rfl, h⟩

theorem Matches.exists_right {w? : Option Json} {v : Json} (h : Matches (some v) w?) :
    ∃ w, w? = some w ∧ v.Restates w := by
  cases h with
  | some h => exact ⟨_, rfl, h⟩

theorem Matches.eq_none_left {v? : Option Json} (h : Matches v? none) : v? = none := by
  cases h
  rfl

theorem Matches.eq_none_right {w? : Option Json} (h : Matches none w?) : w? = none := by
  cases h
  rfl

namespace Restates

theorem eq_of_isScalar (h : j.Restates k) (hk : k.isScalar) : j = k := by
  have hsame := h.same
  cases k with
  | arr | obj => cases hk
  | null | bool | int | float | str => cases j <;> simp_all [canonical]

theorem isNull_eq (h : j.Restates k) : j.isNull = k.isNull := by
  have hsame := h.same
  cases j <;> cases k <;> simp_all [canonical, isNull]

theorem arr {items : List Json} (h : j.Restates (.arr items)) :
    ∃ items', j = .arr items' ∧ List.Forall₂ Restates items' items := by
  obtain ⟨htidy, hsame⟩ := h
  cases j with
  | arr items' =>
    refine ⟨items', rfl, ?_⟩
    rw [Tidy, tidyItems_iff] at htidy
    rw [canonical, canonical, Json.arr.injEq, canonicalItems_eq_map, canonicalItems_eq_map] at hsame
    have hpairs : List.Forall₂ (fun i k => i.canonical = k.canonical) items' items :=
      List.forall₂_map_left_iff.1 (List.forall₂_map_right_iff.1 (List.forall₂_eq_eq_eq ▸ hsame))
    exact (List.forall₂_and_left _ _).2 ⟨htidy, hpairs⟩ |>.imp fun _ _ h => ⟨h.1, h.2⟩
  | null | bool | int | float | str | obj => cases hsame

theorem obj (h : j.Restates (.obj members)) :
    ∃ members', j = .obj members' ∧ UniqueKeys members' ∧
      ∀ key, Matches ((Json.obj members').get? key) ((Json.obj members).get? key) := by
  obtain ⟨htidy, hsame⟩ := h
  cases j with
  | obj members' =>
    obtain ⟨hunique, htidy⟩ := tidy_obj_iff.1 htidy
    refine ⟨members', rfl, hunique, fun key => ?_⟩
    have hget : ((Json.obj members').get? key).map canonical = ((Json.obj members).get? key).map canonical := by
      rw [canonical, canonical, Json.obj.injEq] at hsame
      have hkey := congrArg (Dict.Entries.get? key) hsame
      rwa [get?_canonicalMembers, get?_canonicalMembers, Dict.Entries.get?, Option.or_none,
        Option.or_none] at hkey
    cases hv : (Json.obj members').get? key <;> cases hw : (Json.obj members).get? key <;>
      rw [hv, hw] at hget <;> simp at hget
    · exact .none
    · exact .some ⟨Tidy.of_get? htidy hv, hget⟩
  | null | bool | int | float | str | arr => cases hsame

end Restates

end BareMetal.Json
