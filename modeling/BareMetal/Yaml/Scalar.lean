import BareMetal.Number.Decimal

/-!
# The meaning of plain scalars

A scalar that is written without quotes is `null`, a truth value, a number or else a text. Whole
numbers are written in base ten, or after `0x`, `0o` or `0b` in base sixteen, eight or two.
-/

namespace BareMetal.Yaml

/-- What a plain scalar means. -/
inductive Meaning
  | null
  | bool (b : Bool)
  | int (i : Int)
  | float (x : Float)
  | text
  /-- A whole number that needs more than 64 bits. -/
  | tooLarge

namespace Meaning

/-- The truth value with a name. -/
def flag? : List Char → Option Bool
  | ['t', 'r', 'u', 'e'] | ['T', 'r', 'u', 'e'] | ['T', 'R', 'U', 'E'] => some true
  | ['f', 'a', 'l', 's', 'e'] | ['F', 'a', 'l', 's', 'e'] | ['F', 'A', 'L', 'S', 'E'] => some false
  | _ => none

/-- Whether a text is a name of `null`. -/
def isNull (cs : List Char) : Bool :=
  [['n', 'u', 'l', 'l'], ['N', 'u', 'l', 'l'], ['N', 'U', 'L', 'L'], ['~']].contains cs

/-- Splits off a sign. -/
def splitSign : List Char → Bool × List Char
  | '-' :: cs => (true, cs)
  | '+' :: cs => (false, cs)
  | cs => (false, cs)

/-- Whether a text is a zero with more digits after it, which makes it no number. -/
def isPaddedNumber (cs : List Char) : Bool :=
  match (splitSign cs).2 with
  | '0' :: d :: rest => (d :: rest).all (·.isDigit)
  | _ => false

/-- The value of a digit in a base up to sixteen. -/
def digit? (base : Nat) (c : Char) : Option Nat :=
  let n :=
    if c.isDigit then c.toNat - 48
    else if 'a' ≤ c && c ≤ 'f' then c.toNat - 87
    else if 'A' ≤ c && c ≤ 'F' then c.toNat - 55
    else 16
  if n < base then some n else none

/-- The number that digits write. -/
def digits? (base : Nat) (cs : List Char) : Option Nat :=
  if cs.isEmpty then none
  else cs.foldl (fun n c => n.bind fun n => (digit? base c).map (base * n + ·)) (some 0)

/-- The whole number without sign that a text writes. -/
def natural? (cs : List Char) : Option Nat :=
  let based := match cs with
    | '0' :: 'x' :: ds => digits? 16 ds
    | '0' :: 'o' :: ds => digits? 8 ds
    | '0' :: 'b' :: ds => digits? 2 ds
    | _ => none
  match based with
  | some n => some n
  | none => if isPaddedNumber cs then none else digits? 10 cs

/-- The whole number that a text writes. -/
def whole? (cs : List Char) : Option Int :=
  let (negative, ds) := splitSign cs
  (natural? ds).map fun n => if negative then -n else n

/-- The float that a text writes. -/
def float? (cs : List Char) : Option Float :=
  let (negative, ds) := splitSign cs
  let sign (x : Float) : Float := if negative then -x else x
  let infinities := [['.', 'i', 'n', 'f'], ['.', 'I', 'n', 'f'], ['.', 'I', 'N', 'F']]
  let noNumbers := [['.', 'n', 'a', 'n'], ['.', 'N', 'a', 'N'], ['.', 'N', 'A', 'N']]
  if infinities.contains ds then some (sign (1.0 / 0.0))
  else if noNumbers.contains cs then some (0.0 / 0.0)
  else (Number.Decimal.ofChars? ds).bind fun d => if d.toFloat.isFinite then some (sign d.toFloat) else none

/-- What a whole number means. -/
def ofWhole (i : Int) : Option Meaning :=
  if -2 ^ 63 ≤ i ∧ i < 2 ^ 64 then some (.int i)
  else if -2 ^ 127 ≤ i ∧ i < 2 ^ 128 then some .tooLarge
  else none

/-- What a number means, if the text writes one. -/
def number? (cs : List Char) : Option Meaning :=
  match (whole? cs).bind ofWhole with
  | some m => some m
  | none => if isPaddedNumber cs then none else (float? cs).map .float

/-- What a text means when it is written without quotes. -/
def ofPlain (s : String) : Meaning :=
  let cs := s.toList
  if cs.isEmpty || isNull cs then .null
  else match flag? cs with
    | some b => .bool b
    | none => (number? cs).getD .text

/-- Whether a text written without quotes is read as that text, and cannot be taken for a number
by anybody else. -/
def isPlainText (s : String) : Bool :=
  match ofPlain s with
  | .text => !isPaddedNumber s.toList
  | _ => false

end Meaning

end BareMetal.Yaml
