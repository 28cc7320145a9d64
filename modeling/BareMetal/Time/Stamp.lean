import BareMetal.Text.Blank
import BareMetal.Time.Span

/-!
# Points in time

A stamp counts nanoseconds from the start of 1970, in universal time, on the Gregorian calendar
without leap seconds. Stamps are read from RFC 3339 texts, with the usual leniency: a blank or a
small `t` may separate date and time, blanks may stand between the parts, and `UTC` may stand for
the offset.
-/

namespace BareMetal

/-- A point in time, in nanoseconds from the epoch. -/
structure Stamp where
  nanos : Int
deriving DecidableEq

namespace Stamp

instance : Inhabited Stamp := ⟨⟨0⟩⟩
instance : LE Stamp := ⟨fun a b => a.nanos ≤ b.nanos⟩
instance : LT Stamp := ⟨fun a b => a.nanos < b.nanos⟩
instance (a b : Stamp) : Decidable (a ≤ b) := inferInstanceAs (Decidable (a.nanos ≤ b.nanos))
instance (a b : Stamp) : Decidable (a < b) := inferInstanceAs (Decidable (a.nanos < b.nanos))

/-- The start of 1970. -/
def epoch : Stamp := ⟨0⟩

/-- The stamp `s` later. -/
def later (t : Stamp) (s : Span) : Stamp := ⟨t.nanos + s.nanos⟩

/-- The time from `a` to `b`, none if `b` is earlier. -/
def elapsed (a b : Stamp) : Span :=
  if a ≤ b then (Span.ofNanos? (b.nanos - a.nanos).toNat).getD .longest else .zero

/-! ## Calendar -/

/-- Whether February has a 29th day. -/
def isLeap (year : Int) : Bool := year % 4 = 0 && (year % 100 ≠ 0 || year % 400 = 0)

/-- The number of days of a month. -/
def daysInMonth (year : Int) (month : Nat) : Nat :=
  match month with
  | 2 => if isLeap year then 29 else 28
  | 4 | 6 | 9 | 11 => 30
  | _ => 31

/-- Days from the epoch to the first of March of a year. -/
def marchDay (year : Int) : Int :=
  365 * year + year / 4 - year / 100 + year / 400 - 719468

/-- Days from the first of March to the first of a month, `0` being March. -/
def monthStart (m : Nat) : Nat := (153 * m + 2) / 5

/-- Days from the epoch to a date. -/
def daysOfDate (year : Int) (month day : Nat) : Int :=
  if month ≤ 2 then marchDay (year - 1) + monthStart (month + 9) + day - 1
  else marchDay year + monthStart (month - 3) + day - 1

/-- Year, month and day of a number of days from the epoch. -/
def dateOfDays (days : Int) : Int × Nat × Nat :=
  let z := days + 719468
  let era := z / 146097
  let dayOfEra := z % 146097
  let yearOfEra := (dayOfEra - dayOfEra / 1460 + dayOfEra / 36524 - dayOfEra / 146096) / 365
  let dayOfYear := (dayOfEra - (365 * yearOfEra + yearOfEra / 4 - yearOfEra / 100)).toNat
  let m := (5 * dayOfYear + 2) / 153
  let day := dayOfYear - monthStart m + 1
  let month := if m < 10 then m + 3 else m - 9
  (yearOfEra + era * 400 + (if month ≤ 2 then 1 else 0), month, day)

/-! ## Reading -/

/-- Drops blanks. -/
private def skip (cs : List Char) : List Char := cs.dropWhile Text.isBlank

/-- A number of one to `width` digits, after blanks. -/
private def number? (width : Nat) (cs : List Char) : Option (Nat × List Char) :=
  let cs := skip cs
  let ds := (cs.take width).takeWhile (·.isDigit)
  if ds.isEmpty then none else some (Number.Decimal.number 0 ds, cs.drop ds.length)

/-- A year: up to four digits, or any number of them after a sign. -/
private def year? (cs : List Char) : Option (Int × List Char) :=
  let signed (rest : List Char) (sign : Int) :=
    (number? rest.length rest).bind fun (n, after) =>
      if rest.head?.any (·.isDigit) then some (sign * n, after) else none
  match skip cs with
  | '-' :: rest => signed rest (-1)
  | '+' :: rest => signed rest 1
  | cs => (number? 4 cs).map fun (n, after) => ((n : Int), after)

/-- A separator, after blanks. -/
private def mark? (c : Char) (cs : List Char) : Option (List Char) :=
  match skip cs with
  | d :: rest => if c = d then some rest else none
  | [] => none

/-- A fraction of a second in nanoseconds; digits after the ninth do not count. -/
private def fraction? : List Char → Option (Nat × List Char)
  | '.' :: cs =>
    let ds := cs.takeWhile (·.isDigit)
    let nine := ds.take 9
    if ds.isEmpty then none
    else some (Number.Decimal.number 0 nine * Nat.pow 10 (9 - nine.length), cs.drop ds.length)
  | cs => some (0, cs)

/-- Two digits. -/
private def pair? : List Char → Option (Nat × List Char)
  | a :: b :: rest => if a.isDigit && b.isDigit then some (Number.Decimal.number 0 [a, b], rest) else none
  | _ => none

/-- An offset from universal time in seconds. -/
private def offset? (cs : List Char) : Option (Int × List Char) :=
  match cs with
  | 'Z' :: rest | 'z' :: rest => some (0, rest)
  | a :: b :: c :: rest =>
    if [a.toLower, b.toLower, c.toLower] = ['u', 't', 'c'] then some (0, rest)
    else signed cs
  | _ => signed cs
where
  signed : List Char → Option (Int × List Char)
    | s :: rest =>
      let sign : Option Int := if s = '+' then some 1 else if s = '-' || s = '\u2212' then some (-1) else none
      sign.bind fun sign =>
        (pair? rest).bind fun (hours, rest) =>
          (pair? (rest.dropWhile fun c => c = ':' || Text.isBlank c)).bind fun (minutes, rest) =>
            if minutes < 60 && hours < 24 then some (sign * (hours * 3600 + minutes * 60), rest) else none
    | [] => none

/-- The point in time that a text writes. -/
def parse? (s : String) : Option Stamp := do
  let (year, cs) ← year? s.toList
  let cs ← mark? '-' cs
  let (month, cs) ← number? 2 cs
  let cs ← mark? '-' cs
  let (day, cs) ← number? 2 cs
  let cs ← match cs with
    | 't' :: cs | 'T' :: cs | ' ' :: cs => some cs
    | _ => none
  let (hour, cs) ← number? 2 cs
  let cs ← mark? ':' cs
  let (minute, cs) ← number? 2 cs
  let cs ← mark? ':' cs
  let (second, cs) ← number? 2 cs
  let (fraction, cs) ← fraction? cs
  let (offset, cs) ← offset? (skip cs)
  guard (skip cs).isEmpty
  guard (1 ≤ month && month ≤ 12 && 1 ≤ day && day ≤ daysInMonth year month)
  guard (hour < 24 && minute < 60 && second ≤ 60)
  guard (-262143 ≤ year && year ≤ 262142)
  let seconds := daysOfDate year month day * 86400 + hour * 3600 + minute * 60 + second - offset
  return ⟨seconds * 10 ^ 9 + fraction⟩

/-! ## Writing -/

/-- A number with leading zeros up to a width. -/
private def padded (width n : Nat) : String :=
  let ds := Nat.toDigits 10 n
  .ofList (List.replicate (width - ds.length) '0' ++ ds)

/-- Date and time of day, to the second. -/
private def dateTime (t : Stamp) : String :=
  let seconds := t.nanos / 10 ^ 9
  let (year, month, day) := dateOfDays (seconds / 86400)
  let inDay := (seconds % 86400).toNat
  let year :=
    if 0 ≤ year && year ≤ 9999 then padded 4 year.toNat
    else (if year < 0 then "-" else "+") ++ padded 4 year.natAbs
  s!"{year}-{padded 2 month}-{padded 2 day}T" ++
    s!"{padded 2 (inDay / 3600)}:{padded 2 (inDay / 60 % 60)}:{padded 2 (inDay % 60)}"

/-- The stamp in universal time, with three, six or nine places where they are needed. -/
def text (t : Stamp) : String :=
  let n := (t.nanos % 10 ^ 9).toNat
  let places :=
    if n = 0 then ""
    else if n % 10 ^ 6 = 0 then "." ++ padded 3 (n / 10 ^ 6)
    else if n % 10 ^ 3 = 0 then "." ++ padded 6 (n / 10 ^ 3)
    else "." ++ padded 9 n
  dateTime t ++ places ++ "Z"

/-- The stamp in universal time to the second, as cluster objects carry it. -/
def wholeSeconds (t : Stamp) : String := dateTime t ++ "Z"

/-- The stamp in universal time to the microsecond, as events carry it. -/
def microseconds (t : Stamp) : String :=
  dateTime t ++ "." ++ padded 6 ((t.nanos % 10 ^ 9).toNat / 10 ^ 3) ++ "Z"

end Stamp

end BareMetal
