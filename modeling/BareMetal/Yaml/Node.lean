import BareMetal.Dict
import BareMetal.Yaml.Token

/-!
# YAML nodes

A document as a tree of nodes, with tags spelled out. A node that was given a name can stand in
several places; there it is an alias, and the document keeps a table of what the aliases mean.
-/

namespace BareMetal.Yaml

/-- A node of a document. -/
inductive Node
  | scalar (tag : Option String) (style : ScalarStyle) (text : String)
  | sequence (tag : Option String) (items : List Node)
  | mapping (tag : Option String) (pairs : List (Node × Node))
  | alias (id : Nat)
deriving Inhabited

/-- A document: its root, unless there is nothing in the text, and its named nodes. -/
structure Document where
  root : Option Node := none
  anchors : List (Nat × Node) := []
  /-- The number of scalars, aliases and ends of collections. -/
  size : Nat := 0

namespace Document

/-- The node that an alias stands for. -/
def anchor? (d : Document) (id : Nat) : Option Node := (d.anchors.find? (·.1 = id)).map (·.2)

end Document

/-! ## Reading nodes off tokens -/

namespace Parser

/-- The number of a name, and how many names were given before. -/
structure Mark where
  id : Nat
  order : Nat

/-- What is left to read, and what was named before. -/
structure State where
  tokens : List Token
  /-- The numbers of names. A new name gets the number of names before it. -/
  names : Dict Nat := ∅
  /-- How many names were given. -/
  given : Nat := 0
  nodes : List (Mark × Node) := []
  /-- The handles of tags that directives declared. -/
  handles : List (String × String) := []
  size : Nat := 0

/-- A reader of tokens. -/
abbrev Parse := StateT State (Except Fault)

/-- Gives up. -/
def fail {α : Type} (problem : String) : Parse α := throw (.malformed problem 0 0)

/-- The next token. -/
def peek : Parse (Option Token) := do return (← get).tokens.head?

/-- Passes over a token. -/
def next : Parse Unit := modify fun s => { s with tokens := s.tokens.tail }

/-- Whether the next token is one of those given; the end of the text is not. -/
def isAt (ts : List Token) : Parse Bool := do
  match ← peek with
  | some t => return ts.contains t
  | none => return false

/-- Whether the text ends here. -/
def atEnd : Parse Bool := do return (← peek).isNone

/-- Counts scalars, aliases and ends of collections. -/
def count (n : Nat) : Parse Unit := modify fun s => { s with size := s.size + n }

/-- An empty scalar. -/
def emptyScalar : Parse Node := do
  count 1
  return .scalar none .plain ""

/-- The full text of a tag. -/
def resolveTag (handle suffix : String) : Parse String := do
  if handle.isEmpty then return suffix
  else
    let declared := (← get).handles ++ [("!", "!"), ("!!", "tag:yaml.org,2002:")]
    match declared.find? (·.1 = handle) with
    | some (_, stem) => return stem ++ suffix
    | none => fail "found undefined tag handle"

/-- The name and the tag before a node, in either order. -/
def properties : Parse (Option String × Option String) := do
  let anchor? : Parse (Option String) := do
    match ← peek with
    | some (.anchor n) => next; return some n
    | _ => return none
  let tag? : Parse (Option String) := do
    match ← peek with
    | some (.tag h s) => next; return some (← resolveTag h s)
    | _ => return none
  match ← anchor? with
  | some n => return (some n, ← tag?)
  | none =>
    match ← tag? with
    | some t => return (← anchor?, some t)
    | none => return (none, none)

/-- Gives a name to the node that is about to be read. -/
def declare (name : Option String) : Parse (Option Mark) := do
  match name with
  | none => return none
  | some n =>
    let s ← get
    let mark : Mark := ⟨s.names.size, s.given⟩
    set { s with names := s.names.insert n mark.id, given := s.given + 1 }
    return some mark

/-- Keeps a named node. -/
def keep (mark : Option Mark) (n : Node) : Parse Node := do
  match mark with
  | none => return n
  | some mark => do
    modify fun s => { s with nodes := (mark, n) :: s.nodes }
    return n

/-- The tag of a scalar; a lone exclamation mark says nothing. -/
def scalarTag (tag : Option String) : Option String := tag.filter (· ≠ "!")

mutual

/-- A node; `block` allows blocks, and `indentless` a sequence that is not indented more than the
mapping around it. -/
def node (block indentless : Bool) : (fuel : Nat) → Parse Node
  | 0 => fail "too long"
  | fuel + 1 => do
    if let some (.alias name) ← peek then
      next
      count 1
      match (← get).names.get? name with
      | some id => return .alias id
      | none => throw (.undefinedAnchor name)
    let (name, tag) ← properties
    let id ← declare name
    match ← peek with
    | some .blockEntry =>
      if indentless then
        let items ← indentlessItems fuel
        count 2
        keep id (.sequence tag items)
      else nothing id tag
    | some (.scalar style text) =>
      next
      count 1
      keep id (.scalar (scalarTag tag) style text)
    | some .flowSequenceStart =>
      next
      let items ← flowItems true fuel
      count 2
      keep id (.sequence tag items)
    | some .flowMappingStart =>
      next
      let pairs ← flowPairs true fuel
      count 2
      keep id (.mapping tag pairs)
    | some .blockSequenceStart =>
      if block then
        next
        let items ← blockItems fuel
        count 2
        keep id (.sequence tag items)
      else nothing id tag
    | some .blockMappingStart =>
      if block then
        next
        let pairs ← blockPairs fuel
        count 2
        keep id (.mapping tag pairs)
      else nothing id tag
    | _ => nothing id tag
where
  /-- An empty scalar that has a name or a tag. -/
  nothing (id : Option Mark) (tag : Option String) : Parse Node := do
    if id.isNone && tag.isNone then fail "did not find expected node content"
    else
      count 1
      keep id (.scalar tag .plain "")

/-- The items of a block sequence. -/
def blockItems : (fuel : Nat) → Parse (List Node)
  | 0 => fail "too long"
  | fuel + 1 => do
    match ← peek with
    | some .blockEntry =>
      next
      let item ← if ← isAt [.blockEntry, .blockEnd] then emptyScalar else node true false fuel
      return item :: (← blockItems fuel)
    | some .blockEnd => next; return []
    | _ => fail "did not find expected '-' indicator"

/-- The items of a block sequence that is not indented more than the mapping around it. -/
def indentlessItems : (fuel : Nat) → Parse (List Node)
  | 0 => fail "too long"
  | fuel + 1 => do
    match ← peek with
    | some .blockEntry =>
      next
      let item ← if ← isAt [.blockEntry, .key, .value, .blockEnd] then emptyScalar
        else node true false fuel
      return item :: (← indentlessItems fuel)
    | _ => return []

/-- The pairs of a block mapping. -/
def blockPairs : (fuel : Nat) → Parse (List (Node × Node))
  | 0 => fail "too long"
  | fuel + 1 => do
    match ← peek with
    | some .key =>
      next
      let key ← if ← isAt [.key, .value, .blockEnd] then emptyScalar else node true true fuel
      if ← isAt [.value] then
        next
        let value ← if ← isAt [.key, .value, .blockEnd] then emptyScalar else node true true fuel
        return (key, value) :: (← blockPairs fuel)
      else
        let value ← emptyScalar
        return (key, value) :: (← blockPairs fuel)
    | some .blockEnd => next; return []
    | _ => fail "did not find expected key"

/-- The items of a flow sequence. A key starts a mapping of one pair. -/
def flowItems (first : Bool) : (fuel : Nat) → Parse (List Node)
  | 0 => fail "too long"
  | fuel + 1 => do
    if ← isAt [.flowSequenceEnd] then
      next
      return []
    unless first do
      if ← isAt [.flowEntry] then next else fail "did not find expected ',' or ']'"
    if ← isAt [.flowSequenceEnd] then
      next
      return []
    if ← isAt [.key] then
      next
      let key ← if ← isAt [.value, .flowEntry, .flowSequenceEnd] then do next; emptyScalar
        else node false false fuel
      let value ← if ← isAt [.value] then do
          next
          if ← isAt [.flowEntry, .flowSequenceEnd] then emptyScalar else node false false fuel
        else emptyScalar
      count 2
      return .mapping none [(key, value)] :: (← flowItems false fuel)
    else
      let item ← node false false fuel
      return item :: (← flowItems false fuel)

/-- The pairs of a flow mapping. -/
def flowPairs (first : Bool) : (fuel : Nat) → Parse (List (Node × Node))
  | 0 => fail "too long"
  | fuel + 1 => do
    if ← isAt [.flowMappingEnd] then
      next
      return []
    unless first do
      if ← isAt [.flowEntry] then next else fail "did not find expected ',' or '\x7d'"
    if ← isAt [.flowMappingEnd] then
      next
      return []
    if ← isAt [.key] then
      next
      let key ← if ← isAt [.value, .flowEntry, .flowMappingEnd] then emptyScalar
        else node false false fuel
      let value ← if ← isAt [.value] then do
          next
          if ← isAt [.flowEntry, .flowMappingEnd] then emptyScalar else node false false fuel
        else emptyScalar
      return (key, value) :: (← flowPairs false fuel)
    else
      let key ← node false false fuel
      let value ← emptyScalar
      return (key, value) :: (← flowPairs false fuel)

end

/-- The directives before a document. -/
def directives (version : Bool) : (fuel : Nat) → Parse Unit
  | 0 => fail "too long"
  | fuel + 1 => do
    match ← peek with
    | some (.versionDirective major minor) =>
      if version then fail "found duplicate %YAML directive"
      else if major ≠ 1 || (minor ≠ 1 && minor ≠ 2) then fail "found incompatible YAML document"
      else
        next
        directives true fuel
    | some (.tagDirective handle stem) =>
      if (← get).handles.any (·.1 = handle) then fail "found duplicate %TAG directive"
      else
        next
        modify fun s => { s with handles := (handle, stem) :: s.handles }
        directives version fuel
    | _ => return ()

/-- Passes over the ends of documents. -/
def documentEnds : (fuel : Nat) → Parse Unit
  | 0 => fail "too long"
  | fuel + 1 => do
    if ← isAt [.documentEnd] then
      next
      documentEnds fuel

/-- The root of a document after the directives. -/
def content (fuel : Nat) : Parse Node := do
  match ← peek with
  | none | some .documentStart | some .documentEnd | some (.versionDirective ..)
  | some (.tagDirective ..) => emptyScalar
  | _ => node true false fuel

/-- The root of the only document, if the text has one. -/
def document (fuel : Nat) : Parse (Option Node) := do
  if ← atEnd then return none
  let root ← do
    match ← peek with
    | some .documentStart | some (.versionDirective ..) | some (.tagDirective ..) =>
      directives false fuel
      if ← isAt [.documentStart] then
        next
        content fuel
      else fail "did not find expected <document start>"
    | _ => node true false fuel
  if ← isAt [.documentEnd] then next
  documentEnds fuel
  if ← atEnd then return some root else throw .severalDocuments

end Parser

/-- The document that a text holds. -/
def Document.ofText (text : String) : Except Fault Document := do
  let tokens ← Token.scan text
  let (root, s) ← (Parser.document (4 * tokens.length + 4)).run { tokens := tokens }
  -- Of two names with one number, the one that was given later counts.
  let latest := s.nodes.mergeSort fun a b => b.1.order ≤ a.1.order
  return ⟨root, latest.map fun e => (e.1.id, e.2), s.size⟩

end BareMetal.Yaml
