import BareMetal.Json.Basic

/-!
# Merge patches

A merge patch describes a change of a JSON value by an example: members of the patch are written
into the target, `null` removes a member, nested objects are merged, and everything else replaces
what was there.
-/

namespace BareMetal.Json

/-- The members without those that have the key. -/
def dropMember (key : String) (members : List (String × Json)) : List (String × Json) :=
  members.filter (·.1 ≠ key)

/-- Writes a member: in place of the first one with its key, or at the end. -/
def putMember (key : String) (v : Json) : List (String × Json) → List (String × Json)
  | [] => [(key, v)]
  | e :: rest => if e.1 = key then (key, v) :: dropMember key rest else e :: putMember key v rest

/-- Whether the value is `null`. -/
def isNull : Json → Bool
  | .null => true
  | _ => false

/-- The members of an object, none of any other value. -/
def membersOrNone : Json → List (String × Json)
  | .obj members => members
  | _ => []

mutual

/-- The target after the patch. -/
def mergePatch (target : Json) : Json → Json
  | .obj changes => .obj (mergeMembers target.membersOrNone changes)
  | patch => patch

/-- The members of the target after the members of the patch. -/
def mergeMembers (members : List (String × Json)) : List (String × Json) → List (String × Json)
  | [] => members
  | change :: rest =>
    if change.2.isNull then mergeMembers (dropMember change.1 members) rest
    else
      let old := ((members.find? (·.1 = change.1)).map (·.2)).getD .null
      mergeMembers (putMember change.1 (mergePatch old change.2) members) rest

end

end BareMetal.Json
