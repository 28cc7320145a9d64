import BareMetal.Number.Power

/-!
# Binary fractions

A finite float is a whole multiple of a power of two. `Binary.ofFloat?` gives the two parts, on
which rounding and printing are exact arithmetic on whole numbers.
-/

namespace BareMetal.Number

/-- The number `significand * 2 ^ exponent`, with its sign apart. -/
structure Binary where
  negative : Bool
  significand : Nat
  exponent : Int
  /-- The next smaller float is half as far away as the next larger one. -/
  narrowBelow : Bool
deriving DecidableEq

/-- The parts of a float; none for infinities and for what is not a number. -/
def Binary.ofFloat? (x : Float) : Option Binary :=
  let bits : Nat := x.toBits.toNat
  let negative : Bool := bits ≥ 2 ^ 63
  let biased : Nat := bits / 2 ^ 52 % 2 ^ 11
  let fraction : Nat := bits % 2 ^ 52
  if biased = 2047 then none
  else if biased = 0 then some ⟨negative, fraction, -1074, false⟩
  else
    let exponent : Int := biased - 1075
    some ⟨negative, fraction + 2 ^ 52, exponent, fraction = 0 && biased > 1⟩

/-- Numerator and denominator of the absolute value. -/
def Binary.ratio (b : Binary) : Nat × Nat :=
  (b.significand * Nat.pow 2 b.exponent.toNat, Nat.pow 2 (-b.exponent).toNat)

/-- A quotient of whole numbers to the nearest whole number, a half to the even one. -/
def roundHalfEven (num den : Nat) : Nat :=
  let q := num / den
  let r := num % den
  if 2 * r < den then q
  else if 2 * r > den then q + 1
  else q + q % 2

end BareMetal.Number
