import BareMetal.Number.Decimal

/-!
# YAML tokens

A text as a list of tokens. What a line's indentation means is settled here: blocks are opened
and closed by tokens of their own. Whether something is a key is only known at the colon after
it, so everything that may be a key is preceded by a slot, which the colon fills; slots that stay
empty are dropped at the end.
-/

namespace BareMetal.Yaml

/-- Why a text cannot be read as wanted. -/
inductive Fault
  /-- The text is not YAML. -/
  | malformed (problem : String) (line column : Nat)
  | undefinedAnchor (name : String)
  | severalDocuments
  /-- A node is not of the wanted kind. -/
  | mismatch (wanted : String)
  | missing (field : String)
  | duplicate (key : String)
  | tooDeep
  | tooManyAliases
deriving DecidableEq

/-- The wording of a fault. -/
def Fault.message : Fault → String
  | .malformed problem line column => s!"{problem} at line {line + 1} column {column + 1}"
  | .undefinedAnchor name => s!"unknown anchor {name}"
  | .severalDocuments => "more than one document"
  | .mismatch wanted => s!"expected {wanted}"
  | .missing field => s!"missing field {field}"
  | .duplicate key => s!"duplicate entry {key}"
  | .tooDeep => "recursion limit exceeded"
  | .tooManyAliases => "repetition limit exceeded"

/-- How a scalar is written. -/
inductive ScalarStyle
  | plain | singleQuoted | doubleQuoted | literal | folded
deriving DecidableEq, Inhabited

/-- A token. -/
inductive Token
  | versionDirective (major minor : Nat)
  | tagDirective (handle stem : String)
  | documentStart | documentEnd
  | blockSequenceStart | blockMappingStart | blockEnd
  | flowSequenceStart | flowSequenceEnd | flowMappingStart | flowMappingEnd
  | blockEntry | flowEntry | key | value
  | alias (name : String)
  | anchor (name : String)
  | tag (handle suffix : String)
  | scalar (style : ScalarStyle) (text : String)
deriving DecidableEq

/-! ## Characters -/

/-- A space or a tab. -/
def isBlank (c : Char) : Bool := c == ' ' || c == '\t'

/-- A line break. -/
def isBreak (c : Char) : Bool :=
  c == '\r' || c == '\n' || c == '\u0085' || c == '\u2028' || c == '\u2029'

/-- Whether a text is at its end, at a blank or at a line break. -/
def endsWord : List Char → Bool
  | [] => true
  | c :: _ => isBlank c || isBreak c

/-- A letter, digit, underscore or hyphen. -/
def isWord (c : Char) : Bool := c.isAlphanum || c == '_' || c == '-'

/-- A character that may stand in a text. -/
def isAllowed (c : Char) : Bool :=
  c == '\t' || c == '\n' || c == '\r' || (' ' ≤ c && c ≤ '~') || c == '\u0085' ||
    ('\u00a0' ≤ c && c.toNat ≤ 0xFFFD) || 0x10000 ≤ c.toNat

/-- A place in a text. -/
structure Cursor where
  rest : List Char
  index : Nat := 0
  line : Nat := 0
  column : Nat := 0

namespace Cursor

/-- A problem at the place. -/
def fail {α : Type} (c : Cursor) (problem : String) : Except Fault α :=
  .error (.malformed problem c.line c.column)

/-- Passes over characters of one line. -/
def skip (c : Cursor) (n : Nat) : Cursor :=
  { c with rest := c.rest.drop n, index := c.index + n, column := c.column + n }

/-- Passes over the leading characters that satisfy `p`, on one line. -/
def skipWhile (c : Cursor) (p : Char → Bool) : Cursor := c.skip (c.rest.takeWhile p).length

/-- Passes over a line break, and gives it as it is kept in a text. -/
def lineBreak (c : Cursor) : List Char × Cursor :=
  match c.rest with
  | '\r' :: '\n' :: rest => (['\n'], ⟨rest, c.index + 2, c.line + 1, 0⟩)
  | b :: rest =>
    let kept := if b == '\u2028' || b == '\u2029' then b else '\n'
    ([kept], ⟨rest, c.index + 1, c.line + 1, 0⟩)
  | [] => ([], c)

/-- Whether the place is at a break. -/
def atBreak (c : Cursor) : Bool := c.rest.head?.any isBreak

/-- Whether the next character is the one given. -/
def sees (c : Cursor) (ch : Char) : Bool := c.rest.head? == some ch

/-- Whether a line starts here with three of the character, which then stand alone. -/
def atMarker (c : Cursor) (ch : Char) : Bool :=
  c.column = 0 && c.rest.take 3 == [ch, ch, ch] && endsWord (c.rest.drop 3)

end Cursor

/-! ## Quoted and plain scalars -/

/-- Blanks and line breaks between two words. -/
structure Gap where
  /-- Blanks before the first line break. -/
  blanks : List Char := []
  /-- Whether there was a line break. -/
  broken : Bool := false
  /-- The first line break. -/
  first : List Char := []
  /-- The other line breaks. -/
  others : List Char := []

namespace Gap

/-- What a gap leaves between two words: its blanks if it is on one line; else a lone line break
becomes a space and of several the first is dropped. -/
def folded (g : Gap) : List Char :=
  if !g.broken then g.blanks
  else if g.first = ['\n'] then (if g.others.isEmpty then [' '] else g.others)
  else g.first ++ g.others

/-- Reads a gap. With a limit, a tab that stands before the limit in a later line is refused. -/
def read (limit : Nat) : (fuel : Nat) → Gap → Cursor → Except Fault (Gap × Cursor)
  | 0, g, c => .ok (g, c)
  | fuel + 1, g, c =>
    match c.rest with
    | [] => .ok (g, c)
    | ch :: _ =>
      if isBlank ch then
        if g.broken && c.column < limit && ch == '\t' then
          c.fail "found a tab character that violates indentation"
        else read limit fuel (if g.broken then g else { g with blanks := g.blanks ++ [ch] }) (c.skip 1)
      else if isBreak ch then
        let (b, c) := c.lineBreak
        if g.broken then read limit fuel { g with others := g.others ++ b } c
        else read limit fuel { g with broken := true, first := b, blanks := [] } c
      else .ok (g, c)

end Gap

/-- The characters of a plain scalar up to the next gap. -/
def plainWord (flow : Bool) : List Char → Except Unit (List Char)
  | [] => .ok []
  | c :: rest =>
    if isBlank c || isBreak c then .ok []
    else if flow && c == ':' && rest.head?.any ([',', '?', '[', ']', '\x7b', '\x7d'].contains ·) then
      .error ()
    else if c == ':' && endsWord rest then .ok []
    else if flow && [',', '[', ']', '\x7b', '\x7d'].contains c then .ok []
    else (plainWord flow rest).map (c :: ·)

/-- A plain scalar from a word on. The words are joined by what their gaps leave; `pending` is the
gap before the next word. -/
def plainScalar (flow : Bool) (limit : Nat) :
    (fuel : Nat) → List Char → Gap → Cursor → Except Fault (List Char × Bool × Cursor)
  | 0, text, gap, c => .ok (text, gap.broken, c)
  | fuel + 1, text, gap, c =>
    if c.atMarker '-' || c.atMarker '.' || c.sees '#' then .ok (text, gap.broken, c)
    else
      match plainWord flow c.rest with
      | .error _ => c.fail "found unexpected ':'"
      | .ok word =>
        let text := if word.isEmpty then text else text ++ gap.folded ++ word
        let gap := if word.isEmpty then gap else {}
        let c := c.skip word.length
        if !endsWord c.rest || c.rest.isEmpty then .ok (text, gap.broken, c)
        else do
          let (gap, c) ← Gap.read limit (c.rest.length + 1) gap c
          if !flow && c.column < limit then return (text, gap.broken, c)
          else plainScalar flow limit fuel text gap c

/-- The value of a digit in base sixteen. -/
def hexDigit? (c : Char) : Option Nat :=
  if c.isDigit then some (c.toNat - 48)
  else if 'a' ≤ c && c ≤ 'f' then some (c.toNat - 87)
  else if 'A' ≤ c && c ≤ 'F' then some (c.toNat - 55)
  else none

/-- The number that digits in base sixteen write. -/
def hexNumber? (cs : List Char) : Option Nat :=
  cs.foldl (fun n c => n.bind fun n => (hexDigit? c).map (16 * n + ·)) (some 0)

/-- The character that a letter after a backslash stands for. -/
def escape? : Char → Option Char
  | '0' => some '\x00'
  | 'a' => some '\x07'
  | 'b' => some '\x08'
  | 't' | '\t' => some '\t'
  | 'n' => some '\n'
  | 'v' => some '\x0b'
  | 'f' => some '\x0c'
  | 'r' => some '\r'
  | 'e' => some '\x1b'
  | ' ' => some ' '
  | '"' => some '"'
  | '/' => some '/'
  | '\\' => some '\\'
  | 'N' => some '\u0085'
  | '_' => some '\u00a0'
  | 'L' => some '\u2028'
  | 'P' => some '\u2029'
  | _ => none

/-- The number of digits after a letter that writes a character by its number. -/
def escapeWidth? : Char → Option Nat
  | 'x' => some 2
  | 'u' => some 4
  | 'U' => some 8
  | _ => none

/-- The characters of a quoted scalar up to the next gap or quote. An escaped line break ends the
word and counts as the start of a gap, which the last component tells. -/
def quotedWord (single : Bool) :
    (fuel : Nat) → List Char → Cursor → Except Fault (List Char × Cursor × Bool)
  | 0, text, c => .ok (text, c, false)
  | fuel + 1, text, c =>
    match c.rest with
    | [] => .ok (text, c, false)
    | ch :: rest =>
      if isBlank ch || isBreak ch then .ok (text, c, false)
      else if single then
        if ch == '\'' then
          if rest.head? == some '\'' then quotedWord single fuel (text ++ ['\'']) (c.skip 2)
          else .ok (text, c, false)
        else quotedWord single fuel (text ++ [ch]) (c.skip 1)
      else if ch == '"' then .ok (text, c, false)
      else if ch == '\\' then
        match rest with
        | [] => c.fail "found unknown escape character"
        | e :: digits =>
          if isBreak e then .ok (text, (c.skip 1).lineBreak.2, true)
          else
            match escape? e, escapeWidth? e with
            | some x, _ => quotedWord single fuel (text ++ [x]) (c.skip 2)
            | none, some width =>
              let ds := digits.take width
              match if ds.length = width then hexNumber? ds else none with
              | none => c.fail "did not find expected hexdecimal number"
              | some n =>
                if n.isValidChar then quotedWord single fuel (text ++ [.ofNat n]) (c.skip (2 + width))
                else c.fail "found invalid Unicode character escape code"
            | none, none => c.fail "found unknown escape character"
      else quotedWord single fuel (text ++ [ch]) (c.skip 1)

/-- A quoted scalar after its opening quote. -/
def quotedScalar (single : Bool) :
    (fuel : Nat) → List Char → Cursor → Except Fault (List Char × Cursor)
  | 0, _, c => c.fail "found unexpected end of stream"
  | fuel + 1, text, c =>
    if c.atMarker '-' || c.atMarker '.' then c.fail "found unexpected document indicator"
    else if c.rest.isEmpty then c.fail "found unexpected end of stream"
    else do
      let (text, c, broken) ← quotedWord single (c.rest.length + 1) text c
      if c.sees (if single then '\'' else '"') then return (text, c.skip 1)
      else
        let (gap, c) ← Gap.read 0 (c.rest.length + 1) { broken := broken } c
        quotedScalar single fuel (text ++ gap.folded) c

/-! ## Block scalars -/

/-- How the line breaks at the end of a block scalar are treated. -/
inductive Chomping
  | strip | clip | keep
deriving DecidableEq

/-- Passes over indentation and empty lines. The indentation is found out if it is not known yet:
it is that of the widest line before the text. -/
def blockBreaks (indent : Option Nat) :
    (fuel : Nat) → (widest : Nat) → List Char → Cursor → Except Fault (Nat × List Char × Cursor)
  | 0, widest, breaks, c => .ok (widest, breaks, c)
  | fuel + 1, widest, breaks, c =>
    let spaces := (c.rest.takeWhile (· == ' ')).length
    let c := c.skip (match indent with
      | none => spaces
      | some n => min spaces (n - c.column))
    let widest := max widest c.column
    let within := match indent with
      | none => true
      | some n => c.column < n
    if within && c.sees '\t' then c.fail "found a tab character where an indentation space is expected"
    else if c.atBreak then
      let (b, c) := c.lineBreak
      blockBreaks indent fuel widest (breaks ++ b) c
    else .ok (widest, breaks, c)

/-- A block scalar from its first line on. `last` is the break of the line before, `breaks` are
the breaks of the empty lines after it, and `wasBlank` tells whether the line before started with
a blank. -/
def blockLines (literal : Bool) (indent : Nat) : (fuel : Nat) → (text last breaks : List Char) →
    (wasBlank : Bool) → Cursor → Except Fault (List Char × List Char × List Char × Cursor)
  | 0, text, last, breaks, _, c => .ok (text, last, breaks, c)
  | fuel + 1, text, last, breaks, wasBlank, c =>
    if c.column ≠ indent || c.rest.isEmpty then .ok (text, last, breaks, c)
    else do
      let isBlank := c.rest.head?.any isBlank
      let joint :=
        if !literal && last = ['\n'] && !wasBlank && !isBlank then
          if breaks.isEmpty then [' '] else []
        else last
      let line := c.rest.takeWhile (!isBreak ·)
      let c := c.skip line.length
      let (last, c) := c.lineBreak
      let text := text ++ joint ++ breaks ++ line
      let (_, breaks, c) ← blockBreaks (some indent) (c.rest.length + 1) 0 [] c
      blockLines literal indent fuel text last breaks isBlank c

/-- The signs after the one that opens a block scalar: how to chomp, and the indentation. -/
def blockHeader (c : Cursor) : Except Fault (Chomping × Option Nat × Cursor) :=
  let sign? : Cursor → Option (Chomping × Cursor) := fun c =>
    if c.sees '+' then some (.keep, c.skip 1) else if c.sees '-' then some (.strip, c.skip 1) else none
  let digit? : Cursor → Except Fault (Option (Nat × Cursor)) := fun c =>
    match c.rest with
    | d :: _ =>
      if d == '0' then c.fail "found an indentation indicator equal to 0"
      else if d.isDigit then .ok (some (Number.Decimal.digit d, c.skip 1))
      else .ok none
    | [] => .ok none
  match sign? c with
  | some (chomping, c) => do
    match ← digit? c with
    | some (n, c) => return (chomping, some n, c)
    | none => return (chomping, none, c)
  | none => do
    match ← digit? c with
    | some (n, c) =>
      match sign? c with
      | some (chomping, c) => return (chomping, some n, c)
      | none => return (.clip, some n, c)
    | none => return (.clip, none, c)

/-- A block scalar after the sign that opens it, inside a block of the given indentation. -/
def blockScalar (literal : Bool) (parent : Int) (c : Cursor) : Except Fault (String × Cursor) := do
  let (chomping, increment, c) ← blockHeader c
  let c := c.skipWhile isBlank
  let c := if c.sees '#' then c.skipWhile (!isBreak ·) else c
  if !c.rest.isEmpty && !c.atBreak then c.fail "did not find expected comment or line break"
  else
    let c := c.lineBreak.2
    let wanted := increment.map fun n => if parent ≥ 0 then parent.toNat + n else n
    let (widest, breaks, c) ← blockBreaks wanted (c.rest.length + 1) 0 [] c
    let indent := wanted.getD (max (max widest (parent + 1).toNat) 1)
    let (text, last, breaks, c) ← blockLines literal indent (c.rest.length + 1) [] [] breaks false c
    let text := match chomping with
      | .strip => text
      | .clip => text ++ last
      | .keep => text ++ last ++ breaks
    return (.ofList text, c)

/-! ## Tags and directives -/

/-- The numbers of the bytes that a character has in UTF-8. -/
private def tagBytes (c : Char) : List UInt8 := (String.singleton c).toUTF8.toList

/-- Whether a character may stand in a tag; brackets and commas only in a verbatim one. -/
def isTagChar (verbatim : Bool) (c : Char) : Bool :=
  isWord c || [';', '/', '?', ':', '@', '&', '=', '+', '$', '.', '!', '~', '*', '\'', '(', ')'].contains c ||
    (verbatim && [',', '[', ']'].contains c)

/-- The bytes of the rest of a tag, in which `%` and two digits write a byte. -/
def tagRest (verbatim : Bool) : List Char → Option (List UInt8 × List Char)
  | '%' :: a :: b :: rest => do
    let a ← hexDigit? a
    let b ← hexDigit? b
    let (bytes, rest) ← tagRest verbatim rest
    return ((16 * a + b).toUInt8 :: bytes, rest)
  | c :: rest =>
    if c == '%' then none
    else if isTagChar verbatim c then do
      let (bytes, after) ← tagRest verbatim rest
      return (tagBytes c ++ bytes, after)
    else some ([], c :: rest)
  | [] => some ([], [])

/-- The text of the rest of a tag, which may be empty only after a head. -/
def tagUri (verbatim : Bool) (head : List Char) (c : Cursor) : Except Fault (String × Cursor) :=
  match tagRest verbatim c.rest with
  | none => c.fail "did not find URI escaped octet"
  | some (bytes, rest) =>
    match String.fromUTF8? ⟨bytes.toArray⟩ with
    | none => c.fail "found an incorrect UTF-8 octet"
    | some s =>
      if s.isEmpty && head.isEmpty then c.fail "did not find expected tag URI"
      else .ok (.ofList (head.drop 1) ++ s, c.skip (c.rest.length - rest.length))

/-- The handle at the start of a tag: an exclamation mark, perhaps with a word and a second one. -/
def tagHandle (c : Cursor) : Except Fault (List Char × Cursor) :=
  if !c.sees '!' then c.fail "did not find expected '!'"
  else
    let c := c.skip 1
    let word := c.rest.takeWhile isWord
    let c := c.skip word.length
    if c.sees '!' then .ok ('!' :: word ++ ['!'], c.skip 1) else .ok ('!' :: word, c)

/-- A tag. -/
def scanTag (flow : Bool) (c : Cursor) : Except Fault (Token × Cursor) := do
  let (t, c) ← (do
    if c.rest.drop 1 |>.head? |> (· == some '<') then
      let (suffix, c) ← tagUri true [] (c.skip 2)
      if c.sees '>' then return (Token.tag "" suffix, c.skip 1)
      else c.fail "did not find the expected '>'"
    else
      let (handle, c) ← tagHandle c
      if handle.length > 1 && handle.getLast? == some '!' then
        let (suffix, c) ← tagUri false [] c
        return (.tag (.ofList handle) suffix, c)
      else
        let (suffix, c) ← tagUri false handle c
        return (if suffix.isEmpty then .tag "" "!" else .tag "!" suffix, c))
  if (flow && c.sees ',') || endsWord c.rest then return (t, c)
  else c.fail "did not find expected whitespace or line break"

/-- The name of an anchor or alias after its sign. -/
def scanAnchor (c : Cursor) : Except Fault (String × Cursor) :=
  let name := (c.skip 1).rest.takeWhile isWord
  let c := c.skip (1 + name.length)
  let ends := endsWord c.rest ||
    c.rest.head?.any (['?', ':', ',', ']', '\x7d', '%', '@', '\x60'].contains ·)
  if name.isEmpty || !ends then c.fail "did not find expected alphabetic or numeric character"
  else .ok (.ofList name, c)

/-- A number of a version. -/
private def versionNumber (c : Cursor) : Except Fault (Nat × Cursor) :=
  let ds := c.rest.takeWhile (·.isDigit)
  if ds.isEmpty || ds.length > 9 then c.fail "did not find expected version number"
  else .ok (Number.Decimal.number 0 ds, c.skip ds.length)

/-- A directive. -/
def scanDirective (c : Cursor) : Except Fault (Token × Cursor) := do
  let c := c.skip 1
  let name := c.rest.takeWhile isWord
  let c := c.skip name.length
  if name.isEmpty then c.fail "could not find expected directive name"
  else if !endsWord c.rest then c.fail "found unexpected non-alphabetical character"
  else
    let (t, c) ← (do
      if name = ['Y', 'A', 'M', 'L'] then
        let (major, c) ← versionNumber (c.skipWhile isBlank)
        if !c.sees '.' then c.fail "did not find expected digit or '.' character"
        else
          let (minor, c) ← versionNumber (c.skip 1)
          return (Token.versionDirective major minor, c)
      else if name = ['T', 'A', 'G'] then
        let (handle, c) ← tagHandle (c.skipWhile isBlank)
        if handle.length > 1 && handle.getLast? ≠ some '!' then c.fail "did not find expected '!'"
        else if !c.rest.head?.any isBlank then c.fail "did not find expected whitespace"
        else
          let (stem, c) ← tagUri true [] (c.skipWhile isBlank)
          if endsWord c.rest then return (.tagDirective (.ofList handle) stem, c)
          else c.fail "did not find expected whitespace or line break"
      else c.fail "found unknown directive name")
    let c := c.skipWhile isBlank
    let c := if c.sees '#' then c.skipWhile (!isBreak ·) else c
    if c.rest.isEmpty || c.atBreak then return (t, c.lineBreak.2)
    else c.fail "did not find expected comment or line break"

/-! ## The whole text -/

namespace Scanner

/-- Something that may turn out to be a key. -/
structure SimpleKey where
  /-- The slot before it. -/
  slot : Nat
  /-- A key is the only thing that can stand here. -/
  required : Bool
  index : Nat
  line : Nat
  column : Nat

/-- A token, or a slot that may be filled by the start of a key. -/
inductive Item
  | token (t : Token)
  | slot (n : Nat)

/-- The state of the scanner. -/
structure State where
  cursor : Cursor
  /-- The items found, the last one first. -/
  items : List Item := []
  /-- The filled slots, and whether a block starts there, too. -/
  filled : List (Nat × Bool) := []
  slots : Nat := 0
  /-- The possible keys: of the block, or of each flow collection from the innermost on. -/
  keys : List (Option SimpleKey) := [none]
  /-- The indentation of the block and of those around it. -/
  indent : Int := -1
  outer : List Int := []
  /-- Whether a key may start here. -/
  keyAllowed : Bool := true

namespace State

/-- Whether the place is inside a flow collection. -/
def inFlow (s : State) : Bool := s.keys.length > 1

/-- Adds a token. -/
def emit (s : State) (t : Token) : State := { s with items := .token t :: s.items }

/-- Moves on. -/
def moveTo (s : State) (c : Cursor) : State := { s with cursor := c }

/-- Adds a token and passes over its characters. -/
def emitOver (s : State) (t : Token) (n : Nat) : State := (s.emit t).moveTo (s.cursor.skip n)

/-- Closes blocks that are indented more than `column`. -/
def unroll (column : Int) : (fuel : Nat) → State → State
  | 0, s => s
  | fuel + 1, s =>
    if s.inFlow || s.indent ≤ column then s
    else unroll column fuel { s.emit .blockEnd with indent := s.outer.headD (-1), outer := s.outer.tail }

/-- Closes blocks that are indented more than `column`. -/
def closeBlocks (s : State) (column : Int) : State := s.unroll column (s.outer.length + 1)

/-- Whether a block has to be opened at `column`, and the state inside it. -/
def opensBlock (s : State) (column : Nat) : Bool := !s.inFlow && s.indent < column

/-- Enters a block. -/
def enterBlock (s : State) (column : Nat) : State :=
  if s.opensBlock column then { s with indent := column, outer := s.indent :: s.outer } else s

/-- Opens a block here, unless one is open. -/
def openBlock (s : State) (t : Token) : State :=
  let s' := s.enterBlock s.cursor.column
  if s.opensBlock s.cursor.column then s'.emit t else s'

/-- Gives up the possible key of the innermost collection. -/
def dropKey (s : State) : Except Fault State :=
  match s.keys with
  | some k :: rest =>
    if k.required then .error (.malformed "could not find expected ':'" k.line k.column)
    else .ok { s with keys := none :: rest }
  | _ => .ok s

/-- Gives up keys that are too far away. -/
def dropStaleKeys (s : State) : Except Fault State := do
  let keys ← s.keys.mapM fun
    | some k =>
      if k.line < s.cursor.line || k.index + 1024 < s.cursor.index then
        if k.required then .error (.malformed "could not find expected ':'" k.line k.column)
        else .ok none
      else .ok (some k)
    | none => .ok none
  return { s with keys := keys }

/-- Notes that what comes next may be a key. -/
def saveKey (s : State) : Except Fault State :=
  if s.keyAllowed then do
    let s ← s.dropKey
    let c := s.cursor
    let k : SimpleKey := {
      slot := s.slots, required := !s.inFlow && s.indent = c.column
      index := c.index, line := c.line, column := c.column }
    return { s with items := .slot s.slots :: s.items, slots := s.slots + 1, keys := some k :: s.keys.tail }
  else .ok s

/-- A token that cannot be or hold a key. -/
def punctuation (s : State) (t : Token) (n : Nat) (keyAllowed : Bool) : Except Fault State := do
  let s ← s.dropKey
  return { s.emitOver t n with keyAllowed := keyAllowed }

/-- A token that may be a key. -/
def keyLike (s : State) (scan : Cursor → Except Fault (Token × Cursor)) : Except Fault State := do
  let s ← s.saveKey
  let (t, c) ← scan s.cursor
  return { (s.emit t).moveTo c with keyAllowed := false }

/-- Passes over blanks, comments and line breaks. -/
def skipGap : (fuel : Nat) → State → State
  | 0, s => s
  | fuel + 1, s =>
    let c := s.cursor
    let c := if c.column = 0 && c.sees '\ufeff' then c.skip 1 else c
    let tabs := s.inFlow || !s.keyAllowed
    let c := c.skipWhile fun ch => ch == ' ' || (tabs && ch == '\t')
    let c := if c.sees '#' then c.skipWhile (!isBreak ·) else c
    if c.atBreak then
      skipGap fuel { s with cursor := c.lineBreak.2, keyAllowed := s.keyAllowed || !s.inFlow }
    else s.moveTo c

/-- The colon after a key, or one that starts a value without a key. -/
def fetchValue (s : State) : Except Fault State :=
  match s.keys with
  | some k :: rest =>
    let opens := s.opensBlock k.column
    let s := s.enterBlock k.column
    .ok { s.emitOver .value 1 with
      filled := (k.slot, opens) :: s.filled, keys := none :: rest, keyAllowed := false }
  | _ =>
    if !s.inFlow && !s.keyAllowed then
      s.cursor.fail "mapping values are not allowed in this context"
    else
      let s := s.openBlock .blockMappingStart
      .ok { s.emitOver .value 1 with keyAllowed := !s.inFlow }

/-- A plain scalar. -/
def fetchPlain (s : State) : Except Fault State := do
  let s ← s.saveKey
  let c := s.cursor
  let limit := (s.indent + 1).toNat
  let (text, broken, c) ← plainScalar s.inFlow limit (c.rest.length + 1) [] {} c
  return { (s.emit (.scalar .plain (.ofList text))).moveTo c with keyAllowed := broken }

/-- A block scalar. -/
def fetchBlock (s : State) (style : ScalarStyle) : Except Fault State := do
  let s ← s.dropKey
  let (text, c) ← blockScalar (style = .literal) s.indent (s.cursor.skip 1)
  return { (s.emit (.scalar style text)).moveTo c with keyAllowed := true }

/-- A quoted scalar. -/
def fetchQuoted (s : State) (style : ScalarStyle) : Except Fault State := s.keyLike fun c => do
  let (text, c) ← quotedScalar (style = .singleQuoted) (c.rest.length + 1) [] (c.skip 1)
  return (.scalar style (.ofList text), c)

/-- The next token at a place that is neither blank nor the end. -/
def fetch (s : State) (ch : Char) (after : List Char) : Except Fault State :=
  let c := s.cursor
  let between := s.inFlow || endsWord after
  let startOver (s : State) := do
    let s ← (s.closeBlocks (-1)).dropKey
    return { s with keyAllowed := false }
  if c.column = 0 && ch == '%' then do
    let s ← startOver s
    let (t, c) ← scanDirective s.cursor
    return (s.emit t).moveTo c
  else if c.atMarker '-' then (·.emitOver .documentStart 3) <$> startOver s
  else if c.atMarker '.' then (·.emitOver .documentEnd 3) <$> startOver s
  else
    match ch with
    | '[' | '\x7b' => do
      let s ← s.saveKey
      let t := if ch == '[' then Token.flowSequenceStart else .flowMappingStart
      return { s.emitOver t 1 with keys := none :: s.keys, keyAllowed := true }
    | ']' | '\x7d' => do
      let t := if ch == ']' then Token.flowSequenceEnd else .flowMappingEnd
      let s ← s.punctuation t 1 false
      return { s with keys := if s.inFlow then s.keys.tail else s.keys }
    | ',' => s.punctuation .flowEntry 1 true
    | '*' => s.keyLike fun c => (fun (n, c) => (.alias n, c)) <$> scanAnchor c
    | '&' => s.keyLike fun c => (fun (n, c) => (.anchor n, c)) <$> scanAnchor c
    | '!' => s.keyLike (scanTag s.inFlow)
    | '\'' => s.fetchQuoted .singleQuoted
    | '"' => s.fetchQuoted .doubleQuoted
    | _ =>
      if ch == '-' && endsWord after then
        if !s.inFlow && !s.keyAllowed then
          c.fail "block sequence entries are not allowed in this context"
        else (s.openBlock .blockSequenceStart).punctuation .blockEntry 1 true
      else if ch == '?' && between then
        if !s.inFlow && !s.keyAllowed then c.fail "mapping keys are not allowed in this context"
        else (s.openBlock .blockMappingStart).punctuation .key 1 (!s.inFlow)
      else if ch == ':' && between then s.fetchValue
      else if ch == '|' && !s.inFlow then s.fetchBlock .literal
      else if ch == '>' && !s.inFlow then s.fetchBlock .folded
      else
        let indicator := ['-', '?', ':', ',', '[', ']', '\x7b', '\x7d', '#', '&', '*', '!', '|', '>',
          '\'', '"', '%', '@', '\x60'].contains ch
        if !(indicator || isBlank ch) || (ch == '-' && !after.head?.any isBlank) ||
            (!s.inFlow && (ch == '?' || ch == ':') && !endsWord after) then s.fetchPlain
        else c.fail "found character that cannot start any token"

/-- All tokens from here on. -/
def scanFrom : (fuel : Nat) → State → Except Fault State
  | 0, s => .ok s
  | fuel + 1, s => do
    let s ← (s.skipGap (s.cursor.rest.length + 1)).dropStaleKeys
    match s.cursor.rest with
    | [] =>
      let s := if s.cursor.column = 0 then s else
        s.moveTo { s.cursor with column := 0, line := s.cursor.line + 1 }
      (s.closeBlocks (-1)).dropKey
    | ch :: after => do
      let s := s.closeBlocks s.cursor.column
      scanFrom fuel (← s.fetch ch after)

/-- The tokens in order, with filled slots and without the empty ones. -/
def tokens (s : State) : List Token :=
  s.items.reverse.flatMap fun
    | .token t => [t]
    | .slot n => match s.filled.find? (·.1 = n) with
      | some (_, true) => [.blockMappingStart, .key]
      | some (_, false) => [.key]
      | none => []

end State

end Scanner

/-- The tokens of a text. -/
def Token.scan (text : String) : Except Fault (List Token) := do
  let cs := text.toList
  let cs := match cs with
    | '\ufeff' :: rest => rest
    | cs => cs
  if !cs.all isAllowed then .error (.malformed "control characters are not allowed" 0 0)
  else
    let s ← Scanner.State.scanFrom (cs.length + 1) { cursor := ⟨cs, 0, 0, 0⟩ }
    return s.tokens

end BareMetal.Yaml
