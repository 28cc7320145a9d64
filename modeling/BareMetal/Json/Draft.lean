import BareMetal.Json.Basic

/-!
# Drafts of JSON texts

Reading a text from left to right may fail in the middle, and what fails first depends on what the
reader expects: a wrong kind of value is noticed where it starts, a broken numeral only where it
breaks, and a member that nobody asks for is passed over with fewer checks. A `Draft` is the text
as far as it goes, each part with the fault that taking it up would meet, so that every typed
reader of it reports the first fault on its own way through the text.
-/

namespace BareMetal.Json

/-- Why a text is not the document wanted of it. -/
inductive Fault
  /-- The text is not JSON, or goes on after the value. -/
  | malformed
  /-- The text ends inside the value. -/
  | truncated
  /-- The value is not of the wanted kind. -/
  | mismatch
deriving DecidableEq, Repr

/-- A key of an object: what reading it gives, and the fault met even when it is passed over. -/
structure Key where
  read : Except Fault String
  skip : Option Fault

/-- A JSON text as far as it goes. -/
inductive Draft
  /-- A text, number or literal. -/
  | scalar (read : Except Fault Json) (skip : Option Fault)
  /-- An array and the fault after its last item, if it is not closed. -/
  | arr (items : List Draft) (stop : Option Fault)
  /-- An object and the fault after its last member, if it is not closed. -/
  | obj (members : List (Key × Draft)) (stop : Option Fault)

/-- A draft followed by whatever stands after it. -/
structure Document where
  root : Draft
  /-- Something other than blanks follows the value. -/
  trailing : Bool

namespace Draft

/-- A part that cannot be taken up in any way. -/
def broken (f : Fault) : Draft := .scalar (.error f) (some f)

mutual

/-- The first fault met by passing over a part. -/
def skipFault : Draft → Option Fault
  | .scalar _ skip => skip
  | .arr items stop => skipItems items stop
  | .obj members stop => skipMembers members stop

/-- The first fault met by passing over items. -/
def skipItems : List Draft → Option Fault → Option Fault
  | [], stop => stop
  | d :: rest, stop => match skipFault d with
    | some f => some f
    | none => skipItems rest stop

/-- The first fault met by passing over members. -/
def skipMembers : List (Key × Draft) → Option Fault → Option Fault
  | [], stop => stop
  | e :: rest, stop => match e.1.skip with
    | some f => some f
    | none => match skipFault e.2 with
      | some f => some f
      | none => skipMembers rest stop

end

mutual

/-- A value as a draft without faults. -/
def ofJson : Json → Draft
  | .arr items => .arr (ofItems items) none
  | .obj members => .obj (ofMembers members) none
  | j => .scalar (.ok j) none

/-- Items as drafts. -/
def ofItems : List Json → List Draft
  | [] => []
  | j :: rest => ofJson j :: ofItems rest

/-- Members as drafts. -/
def ofMembers : List (String × Json) → List (Key × Draft)
  | [] => []
  | e :: rest => (⟨.ok e.1, none⟩, ofJson e.2) :: ofMembers rest

end

end Draft

/-! ## Texts in quotes -/

namespace Reader

/-- A blank of JSON. -/
def isBlank (c : Char) : Bool := c == ' ' || c == '\n' || c == '\t' || c == '\r'

/-- Drops blanks. -/
def skipBlanks (cs : List Char) : List Char := cs.dropWhile isBlank

/-- The value of a digit in base sixteen. -/
def hexDigit? (c : Char) : Option Nat :=
  if c.isDigit then some (c.toNat - 48)
  else if 'a' ≤ c && c ≤ 'f' then some (c.toNat - 87)
  else if 'A' ≤ c && c ≤ 'F' then some (c.toNat - 55)
  else none

/-- A piece of a text in quotes: a character, or a 16-bit unit given by its number. -/
inductive Piece
  | char (c : Char)
  | unit (n : Nat)

/-- Pieces up to where a text ends, and what follows its closing quote or why there is none. -/
structure Scan where
  pieces : List Piece
  rest : Except Fault (List Char)

/-- Puts a piece in front. -/
def Scan.cons (p : Piece) (s : Scan) : Scan := ⟨p :: s.pieces, s.rest⟩

/-- The character that a backslash and a letter stand for. -/
def simpleEscape? : Char → Option Char
  | '"' => some '"'
  | '\\' => some '\\'
  | '/' => some '/'
  | 'b' => some '\x08'
  | 'f' => some '\x0c'
  | 'n' => some '\n'
  | 'r' => some '\r'
  | 't' => some '\t'
  | _ => none

/-- Splits a text into pieces after its opening quote. -/
def scan : List Char → Scan
  | [] => ⟨[], .error .truncated⟩
  | '"' :: rest => ⟨[], .ok rest⟩
  | ['\\'] => ⟨[], .error .truncated⟩
  | '\\' :: 'u' :: a :: b :: c :: d :: rest =>
    match hexDigit? a, hexDigit? b, hexDigit? c, hexDigit? d with
    | some a, some b, some c, some d => (scan rest).cons (.unit (((a * 16 + b) * 16 + c) * 16 + d))
    | _, _, _, _ => ⟨[], .error .malformed⟩
  | '\\' :: 'u' :: rest =>
    -- Fewer than four bytes cannot hold the four digits.
    ⟨[], .error (if (String.ofList rest).utf8ByteSize < 4 then .truncated else .malformed)⟩
  | '\\' :: c :: rest =>
    match simpleEscape? c with
    | some c => (scan rest).cons (.char c)
    | none => ⟨[], .error .malformed⟩
  | c :: rest => if c.toNat < 0x20 then ⟨[], .error .malformed⟩ else (scan rest).cons (.char c)

/-- The characters that pieces write; a unit that is half of a character needs its other half
directly after it. -/
def assemble (stop : Option Fault) : List Piece → Except Fault (List Char)
  | [] => match stop with
    | some f => .error f
    | none => .ok []
  | .char c :: rest => (assemble stop rest).map (c :: ·)
  | .unit n :: rest =>
    if 0xDC00 ≤ n && n < 0xE000 then .error .malformed
    else if 0xD800 ≤ n && n < 0xDC00 then
      match rest with
      | .unit m :: rest =>
        if 0xDC00 ≤ m && m < 0xE000 then
          (assemble stop rest).map (Char.ofNat (0x10000 + (n - 0xD800) * 0x400 + (m - 0xDC00)) :: ·)
        else .error .malformed
      | [] => .error (stop.getD .malformed)
      | _ => .error .malformed
    else (assemble stop rest).map (Char.ofNat n :: ·)

/-- A text after its opening quote: what reading it gives, the fault met in passing over it, and
what follows. -/
def quotedText (cs : List Char) : Except Fault String × Option Fault × Option (List Char) :=
  let s := scan cs
  match s.rest with
  | .ok rest => ((assemble none s.pieces).map .ofList, none, some rest)
  | .error f => ((assemble (some f) s.pieces).map .ofList, some f, none)

/-! ## Numbers -/

/-- The largest whole number that is kept as a significand. -/
def significandLimit : Nat := 2 ^ 64

/-- As many digits as fit into a significand below the limit, the digits left over, and the
significand. -/
def significand : Nat → List Char → Nat × List Char
  | s, [] => (s, [])
  | s, c :: cs =>
    let next := 10 * s + Number.Decimal.digit c
    if next < significandLimit then significand next cs else (s, c :: cs)

/-- A float with its sign. -/
def signed (negative : Bool) (x : Float) : Float := if negative then -x else x

/-- The parts of a numeral: its sign, its digits before the point, its digits after it if there is
one, and the exponent with its sign if there is one. -/
structure Numeral where
  negative : Bool
  whole : List Char
  part : Option (List Char)
  exponent : Option (Bool × List Char)

/-- The number that a numeral writes. -/
def Numeral.value (n : Numeral) : Except Fault Json :=
  let (s, excess) := significand 0 n.whole
  let decimal (s : Nat) (places : Int) : Except Fault Json :=
    let (negative, ds) := n.exponent.getD (false, [])
    let e : Int := Number.Decimal.number 0 ds
    if e ≥ 2 ^ 31 then
      if s ≠ 0 && !negative then .error .malformed else .ok (.float (signed n.negative 0))
    else
      match Number.Decimal.scale s (places + if negative then -e else e) with
      | some x => .ok (.float (signed n.negative x))
      | none => .error .malformed
  match n.part with
  | some part =>
    let (s, rest) := significand s part
    decimal s (excess.length - (part.length - rest.length : Nat))
  | none =>
    if !excess.isEmpty || n.exponent.isSome then decimal s excess.length
    else if !n.negative then .ok (.int s)
    else if s = 0 then .ok (.float (-0.0))
    else if s ≤ 2 ^ 63 then .ok (.int (-s))
    else .ok (.float (-(Float.ofNat s)))

/-- A numeral at the start of the text. Where its grammar breaks, a reader meets `truncated` at
the end of the text, while one who passes over it calls it malformed. -/
def numeral (cs : List Char) : Draft × Option (List Char) :=
  let (negative, cs) := match cs with
    | '-' :: rest => (true, rest)
    | cs => (false, cs)
  let stuck (rest : List Char) : Draft × Option (List Char) :=
    (.scalar (.error (if rest.isEmpty then .truncated else .malformed)) (some .malformed), none)
  let finish (n : Numeral) (rest : List Char) : Draft × Option (List Char) :=
    (.scalar n.value none, some rest)
  let withExponent (whole : List Char) (part : Option (List Char)) (rest : List Char) :=
    match rest with
    | e :: rest' =>
      if e = 'e' || e = 'E' then
        let (sign, rest'') := match rest' with
          | '+' :: r => (false, r)
          | '-' :: r => (true, r)
          | r => (false, r)
        let (ds, after) := Number.Decimal.spanDigits rest''
        if ds.isEmpty then stuck rest'' else finish ⟨negative, whole, part, some (sign, ds)⟩ after
      else finish ⟨negative, whole, part, none⟩ rest
    | [] => finish ⟨negative, whole, part, none⟩ []
  let (whole, rest) := Number.Decimal.spanDigits cs
  if whole.isEmpty then stuck rest
  else if whole.head? = some '0' && whole.length > 1 then (Draft.broken .malformed, none)
  else
    match rest with
    | '.' :: rest =>
      let (part, rest) := Number.Decimal.spanDigits rest
      if part.isEmpty then stuck rest else withExponent whole (some part) rest
    | rest => withExponent whole none rest

/-! ## Values -/

/-- A literal whose first letter has been seen. -/
def literal (value : Json) (word cs : List Char) : Draft × Option (List Char) :=
  match word, cs with
  | [], rest => (.scalar (.ok value) none, some rest)
  | _ :: _, [] => (.broken .truncated, none)
  | w :: word, c :: cs => if w = c then literal value word cs else (.broken .malformed, none)

mutual

/-- A value after blanks, and what follows it if it is whole. -/
def value : Nat → List Char → Draft × Option (List Char)
  | 0, _ => (.broken .malformed, none)
  | fuel + 1, cs =>
    match skipBlanks cs with
    | [] => (.broken .truncated, none)
    | '"' :: rest =>
      let (read, skip, after) := quotedText rest
      (.scalar (read.map .str) skip, after)
    | '[' :: rest =>
      let (ds, stop, after) := items fuel true rest
      (.arr ds stop, after)
    | '\x7b' :: rest =>
      let (ds, stop, after) := members fuel true rest
      (.obj ds stop, after)
    | 't' :: rest => literal (.bool true) ['r', 'u', 'e'] rest
    | 'f' :: rest => literal (.bool false) ['a', 'l', 's', 'e'] rest
    | 'n' :: rest => literal .null ['u', 'l', 'l'] rest
    | c :: rest => if c = '-' || c.isDigit then numeral (c :: rest) else (.broken .malformed, none)

/-- The items of an array, from the first one on or after one. -/
def items : Nat → Bool → List Char → List Draft × Option Fault × Option (List Char)
  | 0, _, _ => ([], some .malformed, none)
  | fuel + 1, first, cs =>
    let one (cs : List Char) : List Draft × Option Fault × Option (List Char) :=
      match value fuel cs with
      | (d, none) => ([d], none, none)
      | (d, some rest) =>
        let (ds, stop, after) := items fuel false rest
        (d :: ds, stop, after)
    match skipBlanks cs with
    | [] => ([], some .truncated, none)
    | ']' :: rest => ([], none, some rest)
    | c :: rest =>
      if first then one (c :: rest)
      else if c = ',' then one rest
      else ([], some .malformed, none)

/-- The members of an object, from the first one on or after one. -/
def members : Nat → Bool → List Char → List (Key × Draft) × Option Fault × Option (List Char)
  | 0, _, _ => ([], some .malformed, none)
  | fuel + 1, first, cs =>
    let one (cs : List Char) : List (Key × Draft) × Option Fault × Option (List Char) :=
      let badKey (f : Fault) := ([(⟨.error f, some f⟩, Draft.broken f)], none, none)
      match skipBlanks cs with
      | '"' :: rest =>
        let (read, skip, after) := quotedText rest
        match after with
        | none => ([(⟨read, skip⟩, .broken .truncated)], none, none)
        | some rest =>
          match skipBlanks rest with
          | ':' :: rest =>
            match value fuel rest with
            | (d, none) => ([(⟨read, skip⟩, d)], none, none)
            | (d, some rest) =>
              let (ds, stop, after) := members fuel false rest
              ((⟨read, skip⟩, d) :: ds, stop, after)
          | [] => ([(⟨read, skip⟩, .broken .truncated)], none, none)
          | _ => ([(⟨read, skip⟩, .broken .malformed)], none, none)
      | [] => badKey .truncated
      | _ => badKey .malformed
    match skipBlanks cs with
    | [] => ([], some .truncated, none)
    | '\x7d' :: rest => ([], none, some rest)
    | c :: rest =>
      if first then one (c :: rest)
      else if c = ',' then one rest
      else ([], some .malformed, none)

end

end Reader

/-- Reads a text as far as it goes. Every step takes a character or descends once, so twice the
length of the text is enough. -/
def Document.ofText (s : String) : Document :=
  let cs := s.toList
  let (root, after) := Reader.value (2 * cs.length + 2) cs
  ⟨root, (after.map fun rest => !(Reader.skipBlanks rest).isEmpty).getD false⟩

end BareMetal.Json
