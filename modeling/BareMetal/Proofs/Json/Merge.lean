import BareMetal.Json.Merge
import BareMetal.Proofs.Instance.Site
import BareMetal.Proofs.Pool.Site

/-!
# Merge patches of statuses

A merge patch whose members are plain values writes exactly these members, and leaves all others as
they are. Statuses are such patches: written over an older one, a status gives what it says itself,
and else what the older one says, which is what `InstanceStatus.over` and `PoolStatus.over` make of
the two.
-/

namespace BareMetal

namespace Json

variable {k q : String} {v : Json} {members changes : List (String × Json)}

/-! ## Members -/

@[simp] theorem get?_nil (q : String) : (Json.obj []).get? q = none := rfl

theorem get?_cons (e : String × Json) (members : List (String × Json)) (q : String) :
    (Json.obj (e :: members)).get? q =
      ((Json.obj members).get? q).or (if e.1 = q then some e.2 else none) := by
  simp only [get?, List.reverse_cons, List.find?_append, Option.map_or]
  by_cases h : e.1 = q <;> simp [h]

theorem get?_append (ms ns : List (String × Json)) (q : String) :
    (Json.obj (ms ++ ns)).get? q = ((Json.obj ns).get? q).or ((Json.obj ms).get? q) := by
  simp only [get?, List.reverse_append, List.find?_append, Option.map_or]

theorem get?_some? (k : String) (v : Option Json) (q : String) :
    (Json.obj (Fields.some? k v)).get? q = if k = q then v else none := by
  cases v with
  | none => simp [Fields.some?]
  | some v => simp [Fields.some?, get?_cons]

theorem get?_dropMember (k : String) (members : List (String × Json)) (q : String) :
    (Json.obj (dropMember k members)).get? q =
      if q = k then none else (Json.obj members).get? q := by
  induction members with
  | nil => simp [dropMember]
  | cons e rest ih =>
    unfold dropMember at ih ⊢
    by_cases he : e.1 = k
    · rw [List.filter_cons_of_neg (by simp [he]), ih, get?_cons, he]
      split
      · rfl
      · rw [if_neg (Ne.symm ‹_›), Option.or_none]
    · rw [List.filter_cons_of_pos (by simp [he]), get?_cons, get?_cons, ih]
      split
      · subst q; rw [if_neg he, Option.or_none]
      · rfl

theorem get?_putMember (k : String) (v : Json) (members : List (String × Json)) (q : String) :
    (Json.obj (putMember k v members)).get? q =
      if q = k then some v else (Json.obj members).get? q := by
  induction members with
  | nil =>
    rw [putMember, get?_cons, get?_nil, Option.none_or]
    simp [eq_comm]
  | cons e rest ih =>
    unfold putMember
    split
    case isTrue he =>
      rw [get?_cons, get?_cons, get?_dropMember, he]
      split
      · subst q; simp
      · rw [if_neg (Ne.symm ‹_›), if_neg (Ne.symm ‹_›)]
    case isFalse he =>
      rw [get?_cons, get?_cons, ih]
      split
      · rw [Option.some_or]
      · rfl

/-! ## Patches of plain values -/

/-- Whether a patch writes the value as it is, whatever was there. -/
def isPlain : Json → Bool
  | .null | .obj _ => false
  | _ => true

theorem mergePatch_plain (h : v.isPlain) (target : Json) : mergePatch target v = v := by
  cases v <;> simp_all [isPlain, mergePatch]

theorem get?_mergeMembers (hplain : ∀ c ∈ changes, c.2.isPlain) (members : List (String × Json))
    (q : String) :
    (Json.obj (mergeMembers members changes)).get? q =
      ((Json.obj changes).get? q).or ((Json.obj members).get? q) := by
  induction changes generalizing members with
  | nil => rw [mergeMembers, get?_nil, Option.none_or]
  | cons change rest ih =>
    have hc : change.2.isPlain := hplain change (.head _)
    have hnull : change.2.isNull = false := by cases h : change.2 <;> simp_all [isPlain, isNull]
    rw [mergeMembers, if_neg (by simp [hnull])]
    simp only [mergePatch_plain hc]
    rw [ih fun c hmem => hplain c (.tail _ hmem), get?_putMember, get?_cons, Option.or_assoc]
    congr 1
    by_cases hq : q = change.1
    · simp [hq]
    · rw [if_neg hq, if_neg (Ne.symm hq), Option.none_or]

/-- A patch of plain values gives what it says itself, and else what the target says. -/
theorem get?_mergePatch (hplain : ∀ c ∈ changes, c.2.isPlain) (target : Json) (q : String) :
    (mergePatch target (.obj changes)).get? q = ((Json.obj changes).get? q).or (target.get? q) := by
  have htarget : (Json.obj target.membersOrNone).get? q = target.get? q := by cases target <;> rfl
  rw [mergePatch, get?_mergeMembers hplain, htarget]

/-! ## Statuses -/

theorem plain_some? (key : String) (v : Option String) :
    ∀ c ∈ Fields.some? key (v.map .str), c.2.isPlain := by
  cases v <;> simp [Fields.some?, isPlain]

end Json

open Json

namespace InstanceStatus

/-- The members that a status is written as. -/
def members (st : InstanceStatus) : List (String × Json) :=
  [("phase", .str st.phase.name)] ++ Fields.some? "instanceID" (st.instanceId.map .str)
    ++ Fields.some? "deviceState" (st.deviceState.map .str)
    ++ Fields.some? "publicIP" (st.publicIp.map .str)
    ++ Fields.some? "privateIP" (st.privateIp.map .str)

theorem form_encode (st : InstanceStatus) : form.encode st = .obj st.members := rfl

theorem get?_members (st : InstanceStatus) (key : String) :
    (Json.obj st.members).get? key =
      if key = "phase" then some (.str st.phase.name)
      else if key = "instanceID" then st.instanceId.map .str
      else if key = "deviceState" then st.deviceState.map .str
      else if key = "publicIP" then st.publicIp.map .str
      else if key = "privateIP" then st.privateIp.map .str
      else none := by
  simp only [members, get?_append, get?_some?, get?_cons, get?_nil, Option.none_or]
  grind

theorem members_plain (st : InstanceStatus) : ∀ c ∈ st.members, c.2.isPlain := by
  simp only [members, List.forall_mem_append]
  refine ⟨⟨⟨⟨?_, plain_some? _ _⟩, plain_some? _ _⟩, plain_some? _ _⟩, plain_some? _ _⟩
  simp [isPlain]

/-- A status written as a merge patch over the stored one reads as `over` says. -/
theorem get?_mergePatch (new old : InstanceStatus) (key : String) :
    (mergePatch (form.encode old) (form.encode new)).get? key =
      (form.encode (new.over (some old))).get? key := by
  simp only [form_encode, Json.get?_mergePatch new.members_plain, get?_members]
  grind [InstanceStatus.over]

end InstanceStatus

namespace PoolStatus

/-- The members that a status is written as. -/
def members (st : PoolStatus) : List (String × Json) :=
  [("phase", .str st.phase.name), ("ready", .int st.ready.toInt), ("requested", .int st.requested.toInt),
    ("needed", .int st.needed.toInt)] ++ Fields.some? "token" (st.token.map .str)

theorem form_encode (st : PoolStatus) : form.encode st = .obj st.members := rfl

theorem get?_members (st : PoolStatus) (key : String) :
    (Json.obj st.members).get? key =
      if key = "phase" then some (.str st.phase.name)
      else if key = "ready" then some (.int st.ready.toInt)
      else if key = "requested" then some (.int st.requested.toInt)
      else if key = "needed" then some (.int st.needed.toInt)
      else if key = "token" then st.token.map .str
      else none := by
  simp only [members, get?_append, get?_some?, get?_cons, get?_nil, Option.none_or]
  grind

theorem members_plain (st : PoolStatus) : ∀ c ∈ st.members, c.2.isPlain := by
  simp only [members, List.forall_mem_append]
  refine ⟨?_, plain_some? _ _⟩
  simp [isPlain]

/-- A status written as a merge patch over the stored one reads as `over` says. -/
theorem get?_mergePatch (new old : PoolStatus) (key : String) :
    (mergePatch (form.encode old) (form.encode new)).get? key =
      (form.encode (new.over (some old))).get? key := by
  simp only [form_encode, Json.get?_mergePatch new.members_plain, get?_members]
  grind [PoolStatus.over]

end PoolStatus

end BareMetal
