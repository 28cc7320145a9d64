import BareMetal.Json.Form
import BareMetal.Proofs.Json.Merge

/-!
# Reading objects

A value has no faults in it, so passing over its members finds none, and a record reads of an object
exactly what its members read. If no key occurs twice, all that counts is what the object says at the
keys of the record (`Record.Gives`), whatever else it says and in whatever order.
-/

namespace BareMetal.Json

variable {α β : Type}

/-! ## Values as drafts -/

mutual

theorem skipFault_ofJson : ∀ j, (Draft.ofJson j).skipFault = none
  | .null | .bool _ | .int _ | .float _ | .str _ => rfl
  | .arr items => skipItems_ofItems items
  | .obj members => skipMembers_ofMembers members

theorem skipItems_ofItems : ∀ js, Draft.skipItems (Draft.ofItems js) none = none
  | [] => rfl
  | j :: js => by rw [Draft.ofItems, Draft.skipItems, skipFault_ofJson j, skipItems_ofItems js]

theorem skipMembers_ofMembers : ∀ ms, Draft.skipMembers (Draft.ofMembers ms) none = none
  | [] => rfl
  | e :: ms => by
    rw [Draft.ofMembers, Draft.skipMembers, skipFault_ofJson e.2, skipMembers_ofMembers ms]

end

/-! ## Members of an object -/

/-- No key occurs twice. -/
abbrev UniqueKeys (members : List (String × Json)) : Prop := (members.map (·.1)).Nodup

theorem get?_eq_none_of_not_mem {members : List (String × Json)} {key : String}
    (h : key ∉ members.map (·.1)) : (Json.obj members).get? key = none := by
  induction members with
  | nil => rfl
  | cons e members ih =>
    rw [List.map_cons, List.mem_cons, not_or] at h
    rw [get?_cons, ih h.2, if_neg (Ne.symm h.1), Option.none_or]

theorem filter_key {members : List (String × Json)} (h : UniqueKeys members) (key : String) :
    members.filter (·.1 = key) = (((Json.obj members).get? key).map (key, ·)).toList := by
  induction members with
  | nil => rfl
  | cons e members ih =>
    obtain ⟨hnot, hrest⟩ := List.nodup_cons.1 h
    rw [get?_cons]
    by_cases hkey : e.1 = key
    · rw [List.filter_cons_of_pos (by simpa using hkey), ih hrest,
        get?_eq_none_of_not_mem (hkey ▸ hnot), if_pos hkey]
      subst hkey
      rfl
    · rw [List.filter_cons_of_neg (by simpa using hkey), ih hrest, if_neg hkey, Option.or_none]

/-- The members that were taken up have at the key what the value says there. -/
def Taken (j : Json) (ms : List Member) (key : String) : Prop :=
  (ms.filter (·.key = key)).map (·.value) = ((j.get? key).map Draft.ofJson).toList

theorem survey_ofMembers (keys : List String) (place : Nat) (members : List (String × Json)) :
    ∃ ms, Record.survey keys none place (Draft.ofMembers members) = (ms, .ok ()) ∧
      ∀ key ∈ keys, (ms.filter (·.key = key)).map (·.value) =
        (members.filter (·.1 = key)).map fun e => Draft.ofJson e.2 := by
  induction members generalizing place with
  | nil => exact ⟨[], rfl, fun _ _ => rfl⟩
  | cons e members ih =>
    rw [Draft.ofMembers, Record.survey]
    dsimp only
    split
    · next htaken =>
      obtain ⟨ms, hms, hread⟩ := ih (place + 1)
      refine ⟨⟨place, e.1, Draft.ofJson e.2⟩ :: ms, by rw [hms], fun key hkey => ?_⟩
      by_cases hk : e.1 = key
      · rw [List.filter_cons_of_pos (by simpa using hk), List.filter_cons_of_pos (by simpa using hk),
          List.map_cons, List.map_cons, hread key hkey]
      · rw [List.filter_cons_of_neg (by simpa using hk), List.filter_cons_of_neg (by simpa using hk),
          hread key hkey]
    · next hpassed =>
      rw [skipFault_ofJson]
      obtain ⟨ms, hms, hread⟩ := ih (place + 1)
      refine ⟨ms, hms, fun key hkey => ?_⟩
      have hk : e.1 ≠ key := fun hk => hpassed (List.contains_iff_mem.2 (hk ▸ hkey))
      rw [List.filter_cons_of_neg (by simpa using hk), hread key hkey]

/-! ## Records -/

namespace Record

/-- Of an object that says what the value says at its keys, the record reads `a` if more than `n` levels of
nesting are left for the members. -/
def Gives (n : Nat) (r : Record α) (j : Json) (a : α) : Prop :=
  ∀ room end' ms, n < room → (∀ key ∈ r.keys, Taken j ms key) → r.members room end' ms = .ok a

variable {n : Nat} {j v : Json} {key : String} {a b : α} {d : Decoder α}

theorem gives_pure (a : α) : Gives n (pure a) j a := fun _ _ _ _ _ => rfl

theorem Gives.seq {f : Record (α → β)} {r : Record α} {g : α → β} (hf : f.Gives n j g)
    (hr : r.Gives n j a) : (f <*> r).Gives n j (g a) := by
  intro room end' ms hroom hms
  show (f.members room end' ms).seq (r.members room end' ms) = _
  rw [hf room end' ms hroom fun key hkey => hms key (List.mem_append_left _ hkey),
    hr room end' ms hroom fun key hkey => hms key (List.mem_append_right _ hkey)]
  rfl

theorem gives_withDefault_absent (h : j.get? key = none) : (withDefault key a d).Gives n j a := by
  intro room end' ms _ hms
  have htaken := hms key List.mem_cons_self
  rw [Taken, h] at htaken
  exact members_withDefault_absent (List.map_eq_nil_iff.1 htaken)

theorem gives_withDefault_present (h : j.get? key = some v)
    (hd : ∀ room, n < room → d room (Draft.ofJson v) = .ok b) : (withDefault key a d).Gives n j b := by
  intro room end' ms hroom hms
  have htaken := hms key List.mem_cons_self
  rw [Taken, h] at htaken
  obtain ⟨m, hm, hvalue⟩ := List.map_eq_singleton_iff.1 htaken
  rw [members_withDefault_present hm, hvalue, hd room hroom]
  rfl

theorem gives_required (h : j.get? key = some v)
    (hd : ∀ room, n < room → d room (Draft.ofJson v) = .ok b) : (required key d).Gives n j b := by
  intro room end' ms hroom hms
  have htaken := hms key List.mem_cons_self
  rw [Taken, h] at htaken
  obtain ⟨m, hm, hvalue⟩ := List.map_eq_singleton_iff.1 htaken
  rw [members_required_present hm, hvalue, hd room hroom]
  rfl

theorem optional_of_not_null (h : v.isNull = false) (d : Decoder α) (room : Nat) :
    d.optional room (Draft.ofJson v) = some <$> d room (Draft.ofJson v) := by
  cases v <;> first | rfl | cases h

/-- An object without a key that occurs twice is read as its members are. -/
theorem Gives.strict {r : Record α} {members : List (String × Json)} (h : r.Gives n (.obj members) a)
    (hunique : UniqueKeys members) {room : Nat} (hroom : n + 1 < room) :
    r.strict room (Draft.ofJson (.obj members)) = .ok a := by
  obtain ⟨ms, hms, hread⟩ := survey_ofMembers r.keys 0 members
  have htaken : ∀ key ∈ r.keys, Taken (.obj members) ms key := by
    intro key hkey
    rw [Taken, hread key hkey, filter_key hunique]
    cases (Json.obj members).get? key <;> rfl
  obtain ⟨room, rfl⟩ : ∃ k, room = k + 2 := Nat.exists_eq_add_of_le' (by omega)
  show r.object (room + 1) (Draft.ofMembers members) none = .ok a
  rw [object, hms]
  dsimp only
  rw [h _ _ ms (by omega) htaken]
  rfl

end Record

end BareMetal.Json
