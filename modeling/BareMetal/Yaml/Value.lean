import BareMetal.Dict
import BareMetal.Yaml.Node
import BareMetal.Yaml.Scalar

/-!
# YAML values

The data that a document denotes, when nothing else is known about it. A `Reader` takes up a node
as a value of some type; it follows aliases, a limited number of times, and does not enter more
than 128 collections inside each other.
-/

namespace BareMetal.Yaml

/-- What a node denotes. -/
inductive Value
  | null
  | bool (b : Bool)
  | int (i : Int)
  | float (x : Float)
  | str (s : String)
  | seq (items : List Value)
  | map (pairs : List (Value × Value))
  | tagged (tag : String) (v : Value)
deriving Inhabited

namespace Value

mutual

/-- Whether two values are the same data. The order of pairs does not count, and what is no number
is the same as itself. -/
def same : Value → Value → Bool
  | .null, .null => true
  | .bool a, .bool b => a == b
  | .int a, .int b => a == b
  | .float a, .float b => a == b || (a.isNaN && b.isNaN)
  | .str a, .str b => a == b
  | .seq as, .seq bs => sameItems as bs
  | .map as, .map bs => as.length == bs.length && samePairs as bs
  | .tagged s a, .tagged t b => s == t && same a b
  | _, _ => false

/-- Whether two lists have the same items. -/
def sameItems : List Value → List Value → Bool
  | [], [] => true
  | a :: as, b :: bs => same a b && sameItems as bs
  | _, _ => false

/-- Whether every pair of the first list is in the second. -/
def samePairs : List (Value × Value) → List (Value × Value) → Bool
  | [], _ => true
  | a :: as, bs => (bs.any fun b => same a.1 b.1 && same a.2 b.2) && samePairs as bs

end

instance : BEq Value := ⟨same⟩

/-- The value without tags. -/
def untagged : Value → Value
  | .tagged _ v => untagged v
  | v => v

/-- The text, if the value is one. -/
def asText? (v : Value) : Option String :=
  match v.untagged with
  | .str s => some s
  | _ => none

/-- The value at a text key. -/
def get? (v : Value) (key : String) : Option Value :=
  match v.untagged with
  | .map pairs => (pairs.find? (·.1 == .str key)).map (·.2)
  | _ => none

end Value

/-! ## Reading nodes -/

/-- Reading counts the aliases that it follows. -/
abbrev Read := StateT Nat (Except Fault)

/-- Reads a node of a document, given how many more collections may be entered. -/
def Reader (α : Type) : Type := Document → (room : Nat) → Node → Read α

namespace Reader

variable {α : Type}

/-- The number of collections inside each other. -/
def depthLimit : Nat := 128

/-- The node itself, or the node that an alias stands for. -/
def resolve (d : Document) (n : Node) : Read Node :=
  match n with
  | .alias id => do
    let jumps := (← get) + 1
    set jumps
    if jumps > 100 * d.size then throw .tooManyAliases
    else
      match d.anchor? id with
      | some n => return n
      | none => throw (.mismatch "an anchor")
  | n => return n

/-- Enters a collection. -/
def enter (room : Nat) (k : Nat → Read α) : Read α :=
  match room with
  | 0 => throw .tooDeep
  | room + 1 => k room

/-- Any scalar, as a text. -/
def text : Reader String := fun d _ n => do
  match ← resolve d n with
  | .scalar _ _ text => return text
  | _ => throw (.mismatch "a text")

/-- The tag of a core type. -/
def coreTag (name : String) : String := "tag:yaml.org,2002:" ++ name

/-- A truth value. -/
def flag : Reader Bool := fun d _ n => do
  match ← resolve d n with
  | .scalar tag style text =>
    let fits := match style, tag with
      | .plain, _ => true
      | .literal, some tag => tag = coreTag "bool"
      | _, _ => false
    match if fits then Meaning.flag? text.toList else none with
    | some b => return b
    | none => throw (.mismatch "a truth value")
  | _ => throw (.mismatch "a truth value")

/-- The items of a sequence; nothing at all counts as none. -/
def list (r : Reader α) : Reader (List α) := fun d room n => do
  match ← resolve d n with
  | .sequence _ items => enter room fun room => items.mapM (r d room)
  | .scalar _ .plain "" => return []
  | _ => throw (.mismatch "a sequence")

/-- The pairs of a mapping whose keys are texts; nothing at all counts as none. -/
def pairs (k : Nat → List (String × Node) → Read α) : Reader α := fun d room n => do
  match ← resolve d n with
  | .mapping _ pairs => enter room fun room => do
    k room (← pairs.mapM fun p => do return (← text d room p.1, p.2))
  | .scalar _ .plain "" => k room []
  | _ => throw (.mismatch "a mapping")

/-- A mapping with values of one type; of two pairs with one key, the later counts. -/
def dict (r : Reader α) : Reader (Dict α) := fun d => pairs (fun room ps => do
  return Dict.ofList (← ps.mapM fun p => do return (p.1, ← r d room p.2))) d

/-- The value at a key that may occur once. -/
def field? (ps : List (String × Node)) (key : String) (r : Node → Read α) : Read (Option α) :=
  match ps.filter (·.1 = key) with
  | [] => return none
  | [p] => some <$> r p.2
  | _ => throw (.duplicate key)

/-! ## Any value -/

/-- The name of a tag that is not one of the core types. -/
def customTag? (tag : Option String) : Option String :=
  match tag.map String.toList with
  | some ['!'] => some "!"
  | some ('!' :: name) => some (.ofList name)
  | _ => none

/-- The value with a meaning. -/
def ofMeaning (text : String) : Meaning → Read Value
  | .null => return .null
  | .bool b => return .bool b
  | .int i => return .int i
  | .float x => return .float x
  | .text => return .str text
  | .tooLarge => throw (.mismatch "a smaller number")

/-- The value of a scalar without a tag. -/
def ofStyle (style : ScalarStyle) (text : String) : Read Value :=
  if style = .plain then ofMeaning text (.ofPlain text) else return .str text

/-- The value of a scalar whose tag, if any, is not its own. -/
def ofScalar (tag : Option String) (style : ScalarStyle) (text : String) : Read Value :=
  match tag with
  | none => ofStyle style text
  | some tag =>
    let cs := text.toList
    if tag = coreTag "bool" then
      match Meaning.flag? cs with
      | some b => return .bool b
      | none => throw (.mismatch "a truth value")
    else if tag = coreTag "int" then
      match (Meaning.whole? cs).bind Meaning.ofWhole with
      | some m => ofMeaning text m
      | none => throw (.mismatch "a whole number")
    else if tag = coreTag "float" then
      match Meaning.float? cs with
      | some x => return .float x
      | none => throw (.mismatch "a number")
    else if tag = coreTag "null" then
      if Meaning.isNull cs then return .null else throw (.mismatch "null")
    else return .str text

/-- Adds pairs one after another; two may not have the same key. -/
def uniquePairs (key value : Node → Read Value) (done : List (Value × Value)) :
    List (Node × Node) → Read (List (Value × Value))
  | [] => return done.reverse
  | p :: rest => do
    let k ← key p.1
    if done.any (·.1 == k) then throw (.duplicate ((k.asText?).getD ""))
    let v ← value p.2
    uniquePairs key value ((k, v) :: done) rest

/-- The value under a tag. Custom tags are kept, or refused. -/
def underTag (tags : Bool) (tag : Option String) (v : Read Value) : Read Value :=
  match customTag? tag with
  | none => v
  | some name => if tags then Value.tagged name <$> v else throw (.mismatch "no tag")

/-- What a node denotes that is no alias, given how the nodes inside it are read if collections may
be entered. -/
def ofNode (tags : Bool) (inner? : Option (Node → Read Value)) : Node → Read Value
  | .scalar tag style text =>
    if (customTag? tag).isSome then underTag tags tag (ofStyle style text) else ofScalar tag style text
  | .sequence tag items =>
    match inner? with
    | none => throw .tooDeep
    | some inner => underTag tags tag (Value.seq <$> items.mapM inner)
  | .mapping tag ps =>
    match inner? with
    | none => throw .tooDeep
    | some inner => underTag tags tag (Value.map <$> uniquePairs inner inner [] ps)
  | .alias _ => throw (.mismatch "an anchor")

/-- What a node denotes. -/
def value (tags : Bool) (d : Document) : (room : Nat) → Node → Read Value
  | 0, n => do ofNode tags none (← resolve d n)
  | room + 1, n => do ofNode tags (some (value tags d room)) (← resolve d n)

/-- Reads the root of a document, or gives `absent` if there is nothing. -/
def run (r : Reader α) (absent : α) (d : Document) : Except Fault α :=
  match d.root with
  | none => .ok absent
  | some n => (r d depthLimit n).run' 0

end Reader

/-- The value of a text with one document; an empty text is `null`. -/
def Value.ofText (text : String) : Except Fault Value := do
  Reader.run (Reader.value true) .null (← Document.ofText text)

end BareMetal.Yaml
