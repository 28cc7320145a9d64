import BareMetal.Number.Shortest
import BareMetal.Yaml.Value

/-!
# Values as text

A value in block style, as people write it: one pair or item a line, the items of a sequence not
indented under their key, and quotes only around texts that need them.
-/

namespace BareMetal.Yaml

/-! ## Scalars -/

/-- A character that need not be escaped. -/
def isPrinted (c : Char) : Bool :=
  c == '\n' || (' ' ≤ c && c ≤ '~') ||
    ('\u00a0' ≤ c && c != '\ufeff' && c.toNat != 0xFFFE && c.toNat != 0xFFFF)

/-- Whether two neighbours satisfy `p` and `q`. -/
def hasNeighbours (p q : Char → Bool) : List Char → Bool
  | a :: b :: rest => (p a && q b) || hasNeighbours p q (b :: rest)
  | _ => false

/-- Whether a text would be taken for something else than a text because of the signs in it. -/
def hasIndicators (cs : List Char) : Bool :=
  cs.take 3 == ['-', '-', '-'] || cs.take 3 == ['.', '.', '.'] ||
    (match cs with
      | c :: rest => (",[]\x7b\x7d#&*!|>'\"%@\x60".toList.contains c) ||
          ("?:-".toList.contains c && endsWord rest)
      | [] => false) ||
    hasNeighbours (fun c => isBlank c || isBreak c) (· == '#') cs ||
    hasNeighbours (· == ':') (fun c => isBlank c || isBreak c) cs || cs.getLast? == some ':'

/-- Whether a text can stand without quotes. -/
def allowsPlain (cs : List Char) : Bool :=
  cs.all (fun c => isPrinted c && !isBreak c) && !hasIndicators cs && cs.head? != some ' ' &&
    cs.getLast? != some ' '

/-- Whether a text can stand in single quotes. -/
def allowsSingleQuoted (cs : List Char) : Bool :=
  cs.all isPrinted && !hasNeighbours isBreak (· == ' ') cs && !hasNeighbours (· == ' ') isBreak cs

/-- Whether a text can stand in a literal block. -/
def allowsLiteral (cs : List Char) : Bool :=
  cs.all isPrinted && !hasNeighbours (· == ' ') isBreak cs && cs.getLast? != some ' '

/-- Indentation in front of every line that is not empty; the first line is indented if `atStart`
is set. -/
def indentLines (indent : List Char) (write : Char → List Char) (atStart : Bool) : List Char → List Char
  | [] => []
  | c :: rest =>
    if isBreak c then c :: indentLines indent write true rest
    else (if atStart then indent else []) ++ write c ++ indentLines indent write false rest

/-- A text in single quotes. -/
def singleQuoted (indent : List Char) (cs : List Char) : List Char :=
  '\'' :: indentLines indent (fun c => if c == '\'' then ['\'', '\''] else [c]) false cs ++
    (if cs.getLast?.any isBreak then indent else []) ++ ['\'']

/-- The letter that follows a backslash to write a character. -/
def escapeLetter? : Char → Option Char
  | '\x00' => some '0'
  | '\x07' => some 'a'
  | '\x08' => some 'b'
  | '\t' => some 't'
  | '\n' => some 'n'
  | '\x0b' => some 'v'
  | '\x0c' => some 'f'
  | '\r' => some 'r'
  | '\x1b' => some 'e'
  | '"' => some '"'
  | '\\' => some '\\'
  | '\u0085' => some 'N'
  | '\u00a0' => some '_'
  | '\u2028' => some 'L'
  | '\u2029' => some 'P'
  | _ => none

/-- The number of a character in base sixteen with a fixed number of digits. -/
def hexDigits (width n : Nat) : List Char :=
  let ds := (Nat.toDigits 16 n).map Char.toUpper
  List.replicate (width - ds.length) '0' ++ ds

/-- A character in double quotes. -/
def doubleQuotedChar (c : Char) : List Char :=
  if isPrinted c && !isBreak c && c != '"' && c != '\\' then [c]
  else
    '\\' :: match escapeLetter? c with
      | some l => [l]
      | none =>
        if c.toNat ≤ 0xFF then 'x' :: hexDigits 2 c.toNat
        else if c.toNat ≤ 0xFFFF then 'u' :: hexDigits 4 c.toNat
        else 'U' :: hexDigits 8 c.toNat

/-- A text in double quotes. -/
def doubleQuoted (cs : List Char) : List Char := '"' :: cs.flatMap doubleQuotedChar ++ ['"']

/-- A text as a literal block. The indentation is given where the text does not show it, and a
sign tells what ends the text: no line break, or several. -/
def literalBlock (indent : List Char) (cs : List Char) : List Char :=
  let hint := if cs.head?.any fun c => c == ' ' || isBreak c then ['2'] else []
  let chomping := match cs.reverse with
    | b :: rest =>
      if !isBreak b then ['-'] else if rest.isEmpty || rest.head?.any isBreak then ['+'] else []
    | [] => ['-']
  '|' :: hint ++ chomping ++ '\n' :: indentLines indent (fun c => [c]) true cs

/-- A text as a scalar. Texts of several lines become literal blocks, and texts that would not be
read as texts are quoted. -/
def textScalar (indent : List Char) (s : String) : List Char :=
  let cs := s.toList
  if cs.contains '\n' then
    if allowsLiteral cs then literalBlock indent cs else doubleQuoted cs
  else if Meaning.isPlainText s && allowsPlain cs then cs
  else if allowsSingleQuoted cs then singleQuoted indent cs
  else doubleQuoted cs

/-- A float as a scalar. -/
def floatScalar (x : Float) : String :=
  if x.isNaN then ".nan" else (Number.shortest? x).getD (if x < 0 then "-.inf" else ".inf")

/-! ## Collections -/

/-- Indentation by a number of places. -/
def spaces (n : Nat) : List Char := List.replicate n ' '

/-- What separates a line from the next one, which starts after `indent` places: a line break,
unless the line has one already. -/
def newLine (indent : Nat) (line : List Char) : List Char :=
  (if line.getLast?.any isBreak then [] else ['\n']) ++ spaces indent

/-- Whether a value can be a key without a sign of its own. -/
def isSimpleKey : Value → Bool
  | .str s => s.utf8ByteSize ≤ 128 && !s.toList.any isBreak
  | .seq items => items.isEmpty
  | .map pairs => pairs.isEmpty
  | .tagged _ v => isSimpleKey v
  | _ => true

/-- A value without line breaks around it; none if it has items or pairs. -/
def inline? (indent : Nat) : Value → Option (List Char)
  | .null => some ['n', 'u', 'l', 'l']
  | .bool b => some (if b then "true" else "false").toList
  | .int i => some (toString i).toList
  | .float x => some (floatScalar x).toList
  | .str s => some (textScalar (spaces (indent + 2)) s)
  | .seq items => if items.isEmpty then some ['[', ']'] else none
  | .map pairs => if pairs.isEmpty then some ['\x7b', '\x7d'] else none
  | .tagged tag v => (inline? indent v).map fun t => '!' :: tag.toList ++ ' ' :: t

/-- Lines one below the other at `indent`. -/
def joinLines (indent : Nat) : List (List Char) → List Char
  | [] => []
  | [line] => line
  | line :: rest => line ++ newLine indent line ++ joinLines indent rest

/-- Whether the value is a sequence. -/
def Value.isSequence : Value → Bool
  | .seq _ => true
  | _ => false

mutual

/-- A value after a sign, inside a collection at `indent`. -/
def nested (indent : Nat) : Value → List Char
  | .seq (v :: rest) => joinLines (indent + 2) (itemLines (indent + 2) (v :: rest))
  | .map (p :: rest) => joinLines (indent + 2) (pairLines (indent + 2) (p :: rest))
  | .tagged tag v => '!' :: tag.toList ++ underKey (if v.isSequence then indent + 2 else indent) v
  | v => (inline? indent v).getD []

/-- A value after its key, inside a mapping at `indent`. -/
def underKey (indent : Nat) : Value → List Char
  | .seq (v :: rest) => '\n' :: spaces indent ++ joinLines indent (itemLines indent (v :: rest))
  | .map (p :: rest) =>
    '\n' :: spaces (indent + 2) ++ joinLines (indent + 2) (pairLines (indent + 2) (p :: rest))
  | .tagged tag v => ' ' :: '!' :: tag.toList ++ underKey indent v
  | v => ' ' :: (inline? indent v).getD []

/-- The items of a sequence at `indent`. -/
def itemLines (indent : Nat) : List Value → List (List Char)
  | [] => []
  | v :: rest => ('-' :: ' ' :: nested indent v) :: itemLines indent rest

/-- The pairs of a mapping at `indent`. A key that is long or has lines of its own follows a
question mark. -/
def pairLines (indent : Nat) : List (Value × Value) → List (List Char)
  | [] => []
  | (k, v) :: rest =>
    (if isSimpleKey k then (inline? indent k).getD [] ++ ':' :: underKey indent v
    else
      let line := '?' :: ' ' :: nested indent k
      line ++ newLine indent line ++ ':' :: ' ' :: nested indent v) :: pairLines indent rest

end

/-- The value as a document. -/
def Value.render (v : Value) : String :=
  let text := match v with
    | .seq (v :: rest) => joinLines 0 (itemLines 0 (v :: rest))
    | .map (p :: rest) => joinLines 0 (pairLines 0 (p :: rest))
    | v => nested 0 v
  .ofList (text ++ newLine 0 text)

end BareMetal.Yaml
