import BareMetal.Number.Binary
import BareMetal.Number.Decimal
import BareMetal.Text.Blank

/-!
# Spans of time

A span is a whole number of nanoseconds, below `2 ^ 64` seconds. Spans are written as sums of
components such as `1h30m`; `Span.parse` reads that grammar, and `Span.ofSeconds?` rounds a
float number of seconds to the nearest nanosecond.
-/

namespace BareMetal

/-- A length of time in nanoseconds. -/
structure Span where
  nanos : Nat
  nanos_lt : nanos < 2 ^ 64 * 10 ^ 9 := by decide
deriving DecidableEq

namespace Span

/-- The length of a number of nanoseconds, if it is in range. -/
def ofNanos? (n : Nat) : Option Span := if h : n < 2 ^ 64 * 10 ^ 9 then some ⟨n, h⟩ else none

/-- No time at all. -/
def zero : Span := ⟨0, by decide⟩

/-- The longest span. -/
def longest : Span := ⟨2 ^ 64 * 10 ^ 9 - 1, by decide⟩

instance : Inhabited Span := ⟨zero⟩
instance : LE Span := ⟨fun a b => a.nanos ≤ b.nanos⟩
instance : LT Span := ⟨fun a b => a.nanos < b.nanos⟩
instance (a b : Span) : Decidable (a ≤ b) := inferInstanceAs (Decidable (a.nanos ≤ b.nanos))
instance (a b : Span) : Decidable (a < b) := inferInstanceAs (Decidable (a.nanos < b.nanos))

/-- Whole seconds. -/
def seconds (n : Nat) (h : n < 2 ^ 64 := by decide) : Span := ⟨n * 10 ^ 9, by omega⟩

/-- One second. -/
def second : Span := .seconds 1

/-- Whole milliseconds. -/
def millis (n : Nat) (h : n < 2 ^ 64 := by decide) : Span := ⟨n * 10 ^ 6, by omega⟩

/-- Whether no time is left. -/
def isZero (s : Span) : Bool := s.nanos = 0

/-- The sum, if it is in range. -/
def add? (a b : Span) : Option Span := ofNanos? (a.nanos + b.nanos)

/-- What is left of `a` after `b`, nothing if `b` is longer. -/
def remaining (a b : Span) : Span := ⟨a.nanos - b.nanos, Nat.lt_of_le_of_lt (Nat.sub_le ..) a.nanos_lt⟩

/-- Twice the span, or the longest one. -/
def double (a : Span) : Span := (ofNanos? (2 * a.nanos)).getD longest

/-! ## Seconds as floats -/

/-- The length of a float number of seconds, to the nearest nanosecond and a half to the even one;
none if the number is negative, too large or no number. -/
def ofSeconds? (x : Float) : Option Span :=
  match Number.Binary.ofFloat? x with
  | none => none
  | some b =>
    if b.negative && b.significand ≠ 0 then none
    else
      let (num, den) := b.ratio
      ofNanos? (Number.roundHalfEven (num * 10 ^ 9) den)

/-- The number of seconds as a float: the whole seconds plus the rest in billionths. -/
def toSeconds (s : Span) : Float :=
  .ofNat (s.nanos / 10 ^ 9) + .ofNat (s.nanos % 10 ^ 9) / 1e9

/-! ## Written spans -/

/-- Why a text does not write a span. -/
inductive Malformed
  | empty
  | missingUnit (text : String)
  | missingNumber (text : String)
  | badNumber (text : String)
  | unknownUnit (unit text : String)
  | outOfRange (text : String)
deriving DecidableEq

/-- The wording of the reason. -/
def Malformed.message : Malformed → String
  | .empty => "empty duration"
  | .missingUnit s => s!"missing unit in duration '{s}'"
  | .missingNumber s => s!"expected a number in duration '{s}'"
  | .badNumber s => s!"invalid number in duration '{s}'"
  | .unknownUnit u s => s!"unknown unit '{u}' in duration '{s}'"
  | .outOfRange s => s!"duration out of range '{s}'"

/-- A digit or a point. -/
def isNumeral (c : Char) : Bool := c.isDigit || c == '.'

/-- The number of seconds in a unit. -/
def unitSeconds? : List Char → Option Float
  | ['m', 's'] => some 0.001
  | ['s'] => some 1.0
  | ['m'] => some 60.0
  | ['h'] => some 3600.0
  | _ => none

/-- The length of one component: a numeral and the unit that follows it. -/
def component (text : String) (numeral unit : List Char) : Except Malformed (Option Span) :=
  match Number.Decimal.ofChars? numeral with
  | none => .error (.badNumber text)
  | some d =>
    match unitSeconds? unit with
    | none => .error (.unknownUnit (.ofList unit) text)
    | some scale => .ok (ofSeconds? (d.toFloat * scale))

theorem length_dropWhile_le {α : Type} (p : α → Bool) (l : List α) :
    (l.dropWhile p).length ≤ l.length := (List.dropWhile_sublist p).length_le

theorem length_dropWhile_lt {α : Type} {p : α → Bool} {l : List α}
    (h : (l.takeWhile p).isEmpty = false) : (l.dropWhile p).length < l.length := by
  cases l with
  | nil => simp at h
  | cons a l =>
    by_cases ha : p a
    · simpa [ha] using Nat.lt_succ_of_le (length_dropWhile_le p l)
    · simp [ha] at h

/-- Adds the components that `rest` writes to `total`; `text` is the whole text, for messages. -/
def parseFrom (text : String) (total : Span) (rest : List Char) : Except Malformed Span :=
  if rest.isEmpty then .ok total
  else if (rest.dropWhile isNumeral).isEmpty then .error (.missingUnit text)
  else
    match _h : (rest.takeWhile isNumeral).isEmpty with
    | true => .error (.missingNumber text)
    | false =>
      let tail := rest.dropWhile isNumeral
      match component text (rest.takeWhile isNumeral) (tail.takeWhile (!isNumeral ·)) with
      | .error e => .error e
      | .ok none => .error (.outOfRange text)
      | .ok (some part) =>
        match total.add? part with
        | none => .error (.outOfRange text)
        | some sum => parseFrom text sum (tail.dropWhile (!isNumeral ·))
termination_by rest.length
decreasing_by exact Nat.lt_of_le_of_lt (length_dropWhile_le _ _) (length_dropWhile_lt _h)

/-- The span that a text writes: `0`, or a sum of components such as `90s` or `1h30m`, with blanks
around it. -/
def parse (s : String) : Except Malformed Span :=
  let text := Text.trim s
  if text.isEmpty then .error .empty
  else if text = "0" then .ok zero
  else parseFrom text zero text.toList

end Span

end BareMetal
