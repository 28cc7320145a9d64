import BareMetal.Dict
import BareMetal.Json.Draft

/-!
# Typed readers of drafts

A `Decoder` takes up a draft as a value of some type, or reports the first fault it meets. Objects
with fixed keys are read by a `Record`, which combines the readers of its members; the earliest
fault among the members counts, in the order of the text. A record is read in one of two ways:

* *strictly*: a key may occur once, and an array may give the members in order instead;
* *leniently*: only objects count, `null` stands for an absent member, and the last member with a
  key counts.
-/

namespace BareMetal.Json

/-- Reads a draft, given how many more levels of nesting are allowed. -/
def Decoder (α : Type) : Type := Nat → Draft → Except Fault α

/-- The number of levels, the outermost value included, that a text must stay below. -/
def depthLimit : Nat := 128

namespace Decoder

variable {α β : Type}

/-- Converts the result, or reports a mismatch. -/
def andThen (d : Decoder α) (f : α → Except Fault β) : Decoder β := fun room j => d room j >>= f

/-- Converts the result. -/
def map (f : α → β) (d : Decoder α) : Decoder β := fun room j => f <$> d room j

/-- A scalar that `pick` accepts. -/
def scalar (pick : Json → Option α) : Decoder α
  | _, .scalar (.error f) _ => .error f
  | _, .scalar (.ok j) _ => match pick j with
    | some a => .ok a
    | none => .error .mismatch
  | _, _ => .error .mismatch

/-- A text. -/
def text : Decoder String := scalar Json.asText?

/-- A truth value. -/
def flag : Decoder Bool := scalar fun
  | .bool b => some b
  | _ => none

/-- A whole number from `low` to `high`. -/
def whole (low high : Int) : Decoder Int := scalar fun
  | .int i => if low ≤ i ∧ i ≤ high then some i else none
  | _ => none

/-- A whole number of 32 bits. -/
def int32 : Decoder Int32 := (whole (-2 ^ 31) (2 ^ 31 - 1)).map Int32.ofInt

/-- A number. -/
def float : Decoder Float := scalar fun
  | .float x => some x
  | .int i => some (.ofInt i)
  | _ => none

/-- `null` or a value. -/
def optional (d : Decoder α) : Decoder (Option α)
  | _, .scalar (.ok .null) _ => .ok none
  | room, j => some <$> d room j

/-- Reads items one after another. -/
def listFrom (d : Draft → Except Fault α) (stop : Option Fault) : List Draft → Except Fault (List α)
  | [] => match stop with
    | some f => .error f
    | none => .ok []
  | j :: rest => do
    let a ← d j
    let as ← listFrom d stop rest
    return a :: as

/-- Enters a container, if one more level is allowed. -/
def enter (room : Nat) (k : Nat → Except Fault α) : Except Fault α :=
  match room with
  | 0 | 1 => .error .malformed
  | room + 1 => k room

/-- An array of values. -/
def list (d : Decoder α) : Decoder (List α)
  | room, .arr items stop => enter room fun room => listFrom (d room) stop items
  | _, .scalar (.error f) _ => .error f
  | _, _ => .error .mismatch

/-- Reads members one after another into a dictionary. -/
def dictFrom (d : Draft → Except Fault α) (stop : Option Fault) (done : Dict α) :
    List (Key × Draft) → Except Fault (Dict α)
  | [] => match stop with
    | some f => .error f
    | none => .ok done
  | (key, j) :: rest => do
    let k ← key.read
    let a ← d j
    dictFrom d stop (done.insert k a) rest

/-- An object with values of one type. -/
def dict (d : Decoder α) : Decoder (Dict α)
  | room, .obj members stop => enter room fun room => dictFrom (d room) stop ∅ members
  | _, .scalar (.error f) _ => .error f
  | _, _ => .error .mismatch

/-- One of the named values: the name as a text, or as the only key of an object that holds
`null`. -/
def choice (named : String → Option α) : Decoder α
  | room, .obj members stop => enter room fun room =>
    match members, stop with
    | [], some f => .error f
    | [], none => .error .malformed
    | (key, j) :: rest, stop => do
      let k ← key.read
      match named k with
      | none => .error .mismatch
      | some a =>
        scalar (fun | .null => some () | _ => none) room j
        if !rest.isEmpty then .error .malformed
        else match stop with
          | some f => .error f
          | none => .ok a
  | room, .scalar (.ok (.str s)) skip =>
    scalar (fun | .str s => named s | _ => none) room (.scalar (.ok (.str s)) skip)
  | _, .scalar (.error f) _ => .error f
  | _, _ => .error .malformed

mutual

/-- Any value, with the last of two members with one key. -/
def anyValue : Nat → Draft → Except Fault Json
  | _, .scalar read _ => read
  | 0, _ | 1, _ => .error .malformed
  | room + 1, .arr items stop => Json.arr <$> anyItems room stop items
  | room + 1, .obj members stop => (fun d : Dict Json => .obj d.entries) <$> anyMembers room stop ∅ members

/-- Any items. -/
def anyItems : Nat → Option Fault → List Draft → Except Fault (List Json)
  | _, some f, [] => .error f
  | _, none, [] => .ok []
  | room, stop, j :: rest => do
    let a ← anyValue room j
    let as ← anyItems room stop rest
    return a :: as

/-- Any members. -/
def anyMembers : Nat → Option Fault → Dict Json → List (Key × Draft) → Except Fault (Dict Json)
  | _, some f, _, [] => .error f
  | _, none, done, [] => .ok done
  | room, stop, done, e :: rest => do
    let k ← e.1.read
    let a ← anyValue room e.2
    anyMembers room stop (done.insert k a) rest

end

/-- Any value. -/
def any : Decoder Json := anyValue

end Decoder

/-! ## Records -/

/-- A result, or the earliest fault with its place among the members. -/
inductive Earliest (α : Type)
  | ok (a : α)
  | fault (place : Nat) (f : Fault)

namespace Earliest

variable {α β : Type}

/-- Applies a function to the result. -/
def map (f : α → β) : Earliest α → Earliest β
  | .ok a => .ok (f a)
  | .fault n e => .fault n e

/-- Applies one result to another; of two faults the earlier counts. -/
def seq : Earliest (α → β) → Earliest α → Earliest β
  | .ok f, .ok a => .ok (f a)
  | .ok _, .fault n e => .fault n e
  | .fault n e, .ok _ => .fault n e
  | .fault n e, .fault m e' => if n ≤ m then .fault n e else .fault m e'

/-- Forgets the place of a fault. -/
def toExcept : Earliest α → Except Fault α
  | .ok a => .ok a
  | .fault _ f => .error f

/-- Gives a result a place. -/
def ofExcept (place : Nat) : Except Fault α → Earliest α
  | .ok a => .ok a
  | .error f => .fault place f

end Earliest

/-- A readable member of an object with its place. -/
structure Member where
  place : Nat
  key : String
  value : Draft

/-- The readers of the members of an object with fixed keys. -/
structure Record (α : Type) where
  /-- The keys that are taken up. -/
  keys : List String
  /-- Reads the members of an object, all of which come before the given place. -/
  members : (room end' : Nat) → List Member → Earliest α
  /-- Reads leading items of an array. -/
  items : (room : Nat) → List Draft → Option Fault → Except Fault (α × List Draft)

namespace Record

variable {α β : Type}

/-- No member at all. -/
protected def pure (a : α) : Record α where
  keys := []
  members _ _ _ := .ok a
  items _ ds _ := .ok (a, ds)

/-- The members of both records. -/
protected def seq (f : Record (α → β)) (x : Unit → Record α) : Record β where
  keys := f.keys ++ (x ()).keys
  members room end' ms := (f.members room end' ms).seq ((x ()).members room end' ms)
  items room ds stop := do
    let (g, ds) ← f.items room ds stop
    let (a, ds) ← (x ()).items room ds stop
    return (g a, ds)

instance : Applicative Record where
  pure := .pure
  seq := .seq

/-- What reading a member once gives: a second one with its key is a mismatch. -/
private def once (key : String) (absent : (end' : Nat) → Earliest α) (d : Decoder α)
    (room end' : Nat) (ms : List Member) : Earliest α :=
  match ms.filter (·.key = key) with
  | [] => absent end'
  | [m] => .ofExcept m.place (d room m.value)
  | m :: m' :: _ =>
    match d room m.value with
    | .error f => .fault m.place f
    | .ok _ => .fault m'.place .mismatch

/-- The first item of an array. -/
private def first (absent : Except Fault α) (d : Decoder α) (room : Nat) (ds : List Draft)
    (stop : Option Fault) : Except Fault (α × List Draft) :=
  match ds with
  | j :: rest => (d room j).map (·, rest)
  | [] => match stop with
    | some f => .error f
    | none => absent.map (·, [])

/-- A member that must be there. -/
def required (key : String) (d : Decoder α) : Record α where
  keys := [key]
  members := once key (fun end' => .fault (end' + 1) .mismatch) d
  items := first (.error .mismatch) d

/-- A member with a default. -/
def withDefault (key : String) (a : α) (d : Decoder α) : Record α where
  keys := [key]
  members := once key (fun _ => .ok a) d
  items := first (.ok a) d

theorem members_withDefault_absent {key : String} {a : α} {d : Decoder α} {room end' : Nat}
    {ms : List Member} (h : ms.filter (·.key = key) = []) :
    (withDefault key a d).members room end' ms = .ok a := by
  simp only [withDefault, once, h]

theorem members_withDefault_present {key : String} {a : α} {d : Decoder α} {room end' : Nat}
    {ms : List Member} {m : Member} (h : ms.filter (·.key = key) = [m]) :
    (withDefault key a d).members room end' ms = .ofExcept m.place (d room m.value) := by
  simp only [withDefault, once, h]

theorem members_required_present {key : String} {d : Decoder α} {room end' : Nat} {ms : List Member}
    {m : Member} (h : ms.filter (·.key = key) = [m]) :
    (required key d).members room end' ms = .ofExcept m.place (d room m.value) := by
  simp only [required, once, h]

/-- An optional member: absent or `null` for none. -/
def optional (key : String) (d : Decoder α) : Record (Option α) := withDefault key none d.optional

/-- An optional member whose item must be there in an array. -/
def optionalMember (key : String) (d : Decoder α) : Record (Option α) :=
  { optional key d with items := first (.error .mismatch) d.optional }

/-- A member that may be absent or `null`; all members with the key are read, the last counts. -/
def lenient (key : String) (d : Decoder α) : Record (Option α) where
  keys := [key]
  members room _ ms := (ms.filter (·.key = key)).foldl
    (fun done m => (done.map fun _ a => a).seq (.ofExcept m.place (d.optional room m.value))) (.ok none)
  items _ _ _ := .error .mismatch

/-- A member that may be absent or `null`, with the value it then has. -/
def lenientOr (key : String) (a : α) (d : Decoder α) : Record α := (·.getD a) <$> lenient key d

/-- A member that, wherever it occurs, must be the given text. -/
def expected (key text : String) : Record Unit where
  keys := [key]
  members room _ ms := (ms.filter (·.key = key)).foldl
    (fun done m => (done.map fun _ a => a).seq (.ofExcept m.place
      (Decoder.scalar (fun j => if j.asText? = some text then some () else none) room m.value))) (.ok ())
  items _ _ _ := .error .mismatch

/-- The members with a readable key that `keys` takes up, and the earliest fault among the other
members and at the end. -/
def survey (keys : List String) (stop : Option Fault) : (place : Nat) → List (Key × Draft) → List Member × Earliest Unit
  | place, [] => ([], match stop with
    | some f => .fault place f
    | none => .ok ())
  | place, (key, j) :: rest =>
    match key.read with
    | .error f => ([], .fault place f)
    | .ok k =>
      if keys.contains k then
        let (ms, e) := survey keys stop (place + 1) rest
        (⟨place, k, j⟩ :: ms, e)
      else match j.skipFault with
        | some f => ([], .fault place f)
        | none => survey keys stop (place + 1) rest

/-- Reads the members of an object. -/
def object (r : Record α) (room : Nat) (members : List (Key × Draft)) (stop : Option Fault) :
    Except Fault α :=
  let (ms, other) := survey r.keys stop 0 members
  ((other.map fun _ a => a).seq (r.members room members.length ms)).toExcept

/-- Reads an object in which a key occurs once, or an array of the members in order. -/
def strict (r : Record α) : Decoder α
  | room, .obj members stop => Decoder.enter room fun room => r.object room members stop
  | room, .arr items stop => Decoder.enter room fun room => do
    let (a, rest) ← r.items room items stop
    if !rest.isEmpty then .error .malformed
    else match stop with
      | some f => .error f
      | none => .ok a
  | _, .scalar (.error f) _ => .error f
  | _, _ => .error .mismatch

/-- Reads an object and nothing else. -/
def objectOnly (r : Record α) : Decoder α
  | room, .obj members stop => Decoder.enter room fun room => r.object room members stop
  | room, .arr _ _ => Decoder.enter room fun _ => .error .mismatch
  | _, .scalar (.error f) _ => .error f
  | _, _ => .error .mismatch

end Record

/-! ## Whole values -/

/-- Reads a whole text. -/
def Document.read {α : Type} (d : Decoder α) (doc : Document) : Except Fault α :=
  match d depthLimit doc.root with
  | .error f => .error f
  | .ok a => if doc.trailing then .error .malformed else .ok a

/-- Reads a text. -/
def decodeText {α : Type} (d : Decoder α) (s : String) : Except Fault α := (Document.ofText s).read d

/-- Reads a value. -/
def decode {α : Type} (d : Decoder α) (j : Json) : Except Fault α := d depthLimit (.ofJson j)

end BareMetal.Json
