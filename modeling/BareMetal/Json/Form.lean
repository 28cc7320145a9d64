import BareMetal.Json.Decode

/-!
# Forms

A `Form` says how values of a type are read from JSON and written to it. The form of a record is
put together from its members by `Fields`, which names each key once for both directions, so that
what is written under a key is what is read under it.
-/

namespace BareMetal.Json

/-- How values of a type are read and written. -/
structure Form (α : Type) where
  decode : Decoder α
  encode : α → Json

namespace Form

variable {α : Type}

/-- A text. -/
def text : Form String := ⟨.text, .str⟩

/-- A truth value. -/
def flag : Form Bool := ⟨.flag, .bool⟩

/-- A whole number of 32 bits. -/
def int32 : Form Int32 := ⟨.int32, fun i => .int i.toInt⟩

/-- A whole number of 64 bits. -/
def int64 : Form Int := ⟨.whole (-2 ^ 63) (2 ^ 63 - 1), .int⟩

/-- A whole number of eight bits without sign. -/
def byte : Form UInt8 := ⟨(Decoder.whole 0 255).map fun i => i.toNat.toUInt8, fun n => .int n.toNat⟩

/-- A number; one that is not finite is written as `null`. -/
def float : Form Float := ⟨.float, fun x => if x.isFinite then .float x else .null⟩

/-- An array. -/
def list (f : Form α) : Form (List α) := ⟨.list f.decode, fun as => .arr (as.map f.encode)⟩

/-- An object with values of one form. -/
def dict (f : Form α) : Form (Dict α) := ⟨.dict f.decode, fun d => .obj (d.map f.encode).entries⟩

/-- Any value. -/
def any : Form Json := ⟨.any, id⟩

/-- One of the named values, as its name. -/
def choice (name : α → String) (named : String → Option α) : Form α := ⟨.choice named, fun a => .str (name a)⟩

end Form

/-- How members of a `σ` are written, and an `α` is read from them. -/
structure Fields (σ α : Type) where
  record : Record α
  encode : σ → List (String × Json)

namespace Fields

variable {σ α β : Type}

instance : Applicative (Fields σ) where
  pure a := ⟨pure a, fun _ => []⟩
  seq f x := ⟨f.record <*> (x ()).record, fun s => f.encode s ++ (x ()).encode s⟩

/-- A member that is always there. -/
def required (key : String) (get : σ → α) (f : Form α) : Fields σ α :=
  ⟨.required key f.decode, fun s => [(key, f.encode (get s))]⟩

/-- A member that is always written and has a default when it is read. -/
def withDefault (key : String) (get : σ → α) (a : α) (f : Form α) : Fields σ α :=
  ⟨.withDefault key a f.decode, fun s => [(key, f.encode (get s))]⟩

/-- The member of an optional value, if there is one. -/
def some? (key : String) (v : Option Json) : List (String × Json) := (v.map (key, ·)).toList

/-- A member that is there if there is a value. -/
def optional (key : String) (get : σ → Option α) (f : Form α) : Fields σ (Option α) :=
  ⟨.optional key f.decode, fun s => some? key ((get s).map f.encode)⟩

/-- An optional member that cannot be left out at the end of an array. -/
def optionalMember (key : String) (get : σ → Option α) (f : Form α) : Fields σ (Option α) :=
  ⟨.optionalMember key f.decode, fun s => some? key ((get s).map f.encode)⟩

/-- An array that is there if it has items. -/
def items (key : String) (get : σ → List α) (f : Form α) : Fields σ (List α) :=
  ⟨.withDefault key [] f.list.decode,
    fun s => some? key (if (get s).isEmpty then none else some (f.list.encode (get s)))⟩

/-- A dictionary that is there if it has entries. -/
def entries (key : String) (get : σ → Dict α) (f : Form α) : Fields σ (Dict α) :=
  ⟨.withDefault key ∅ f.dict.decode,
    fun s => some? key (if (get s).isEmpty then none else some (f.dict.encode (get s)))⟩

/-- A member that may be absent or `null`. -/
def lenient (key : String) (get : σ → Option α) (f : Form α) : Fields σ (Option α) :=
  ⟨.lenient key f.decode, fun s => some? key ((get s).map f.encode)⟩

/-- A member that is always written, and has a default when it is absent or `null`. -/
def lenientOr (key : String) (get : σ → α) (a : α) (f : Form α) : Fields σ α :=
  ⟨.lenientOr key a f.decode, fun s => [(key, f.encode (get s))]⟩

/-- A text that is always written and never read. -/
def constant (key text : String) : Fields σ Unit := ⟨pure (), fun _ => [(key, .str text)]⟩

/-- A text that is always written, and must be the same wherever it is read. -/
def marker (key text : String) : Fields σ Unit := ⟨.expected key text, fun _ => [(key, .str text)]⟩

end Fields

/-- The form of a record with unique keys. -/
def Form.record {σ : Type} (fs : Fields σ σ) : Form σ := ⟨fs.record.strict, fun s => .obj (fs.encode s)⟩

/-- The form of a record that only objects give. -/
def Form.object {σ : Type} (fs : Fields σ σ) : Form σ := ⟨fs.record.objectOnly, fun s => .obj (fs.encode s)⟩

/-! ## Shapes

A shape checks a value that is not looked into any further, and keeps the part of it that is
known. -/

namespace Shape

/-- A text. -/
def text : Decoder Json := Decoder.text.map .str

/-- A truth value. -/
def flag : Decoder Json := Decoder.flag.map .bool

/-- A whole number of 32 bits. -/
def int32 : Decoder Json := (Decoder.whole (-2 ^ 31) (2 ^ 31 - 1)).map .int

/-- A whole number of 64 bits. -/
def int64 : Decoder Json := (Decoder.whole (-2 ^ 63) (2 ^ 63 - 1)).map .int

/-- A whole number of 32 bits or a text. -/
def intOrText : Decoder Json := Decoder.scalar fun
  | .int i => if -2 ^ 31 ≤ i ∧ i < 2 ^ 31 then some (.int i) else none
  | .str s => some (.str s)
  | _ => none

/-- An array. -/
def list (d : Decoder Json) : Decoder Json := (Decoder.list d).map .arr

/-- An object with values of one shape. -/
def dict (d : Decoder Json) : Decoder Json := (Decoder.dict d).map fun es => .obj es.entries

/-- The members of an object: each may be absent or `null`, and is then left out or has the
default given. -/
def members : List (String × Option Json × Decoder Json) → Record (List (String × Json))
  | [] => pure []
  | (key, default, d) :: rest =>
    (fun v more => Fields.some? key (v <|> default) ++ more) <$> Record.lenient key d <*> members rest

/-- An object with optional members and members with defaults. -/
def object (optional : List (String × Decoder Json)) (defaulted : List (String × Json × Decoder Json)) :
    Decoder Json :=
  ((members (optional.map (fun e => (e.1, none, e.2)) ++
    defaulted.map fun e => (e.1, some e.2.1, e.2.2))).objectOnly).map .obj

end Shape

end BareMetal.Json
