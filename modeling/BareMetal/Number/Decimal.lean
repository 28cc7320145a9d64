import BareMetal.Number.Power

/-!
# Decimal numerals

Readers for numerals such as `12`, `.5` and `1.25e-3`. Two conversions to a float are needed: the
one that rounds the written value once, and the scaled one of JSON texts, which takes as many
leading digits as fit in 64 bits, rounds them, and multiplies or divides by a power of ten.
-/

namespace BareMetal.Number

/-- The number `digits * 10 ^ exponent`. -/
structure Decimal where
  digits : Nat
  exponent : Int
deriving DecidableEq, Repr

namespace Decimal

/-- The value of a decimal digit. -/
def digit (c : Char) : Nat := c.toNat - '0'.toNat

/-- The number that a list of digits writes, after the digits of `start`. -/
def number (start : Nat) (cs : List Char) : Nat := cs.foldl (fun n c => 10 * n + digit c) start

/-- How many decimal digits a number has. -/
def width (n : Nat) : Nat := (Nat.toDigits 10 n).length

/-- The nearest float. -/
def toFloat (d : Decimal) : Float :=
  if d.digits = 0 then 0
  else if (width d.digits : Int) + d.exponent > 400 then 1.0 / 0.0
  else if (width d.digits : Int) + d.exponent < -400 then 0
  else .ofScientific d.digits (d.exponent < 0) d.exponent.natAbs

/-- Splits a list where its leading digits end. -/
def spanDigits (cs : List Char) : List Char × List Char := (cs.takeWhile (·.isDigit), cs.dropWhile (·.isDigit))

/-- An exponent such as `e5` or `E-12`, all of it. -/
def exponent? : List Char → Option Int
  | [] => some 0
  | e :: cs =>
    if e = 'e' || e = 'E' then
      let (negative, ds) := match cs with
        | '-' :: ds => (true, ds)
        | '+' :: ds => (false, ds)
        | ds => (false, ds)
      if ds.isEmpty || !ds.all (·.isDigit) then none
      else
        let n : Int := number 0 ds
        some (if negative then -n else n)
    else none

/-- The numeral that all of the characters write: digits with at most one point among or beside
them, then perhaps an exponent. -/
def ofChars? (cs : List Char) : Option Decimal :=
  let (whole, rest) := spanDigits cs
  let (part, rest) := match rest with
    | '.' :: rest => spanDigits rest
    | rest => ([], rest)
  if whole.isEmpty && part.isEmpty then none
  else (exponent? rest).map fun e => ⟨number 0 (whole ++ part), e - part.length⟩

/-- The exact powers of ten by which a significand is scaled. -/
def powerOfTen (n : Nat) : Float := .ofScientific 1 false n

/-- The float of a significand below `2 ^ 64` scaled by a power of ten in steps of at most 308;
none if it is too large. -/
def scale (significand : Nat) (exponent : Int) : Option Float :=
  let f := Float.ofNat significand
  if significand = 0 then some f
  else if exponent ≥ 0 then
    if exponent > 308 then none
    else
      let g := f * powerOfTen exponent.toNat
      if g.isInf then none else some g
  else
    let n := exponent.natAbs
    let step := powerOfTen 308
    if n ≤ 308 then some (f / powerOfTen n)
    else if n ≤ 616 then some (f / step / powerOfTen (n - 308))
    else some 0

end Decimal

end BareMetal.Number
