import BareMetal.Number.Binary
import BareMetal.Number.Decimal

/-!
# Shortest numerals

The fewest decimal digits that read back to a float, and the layout in which they are written.
The reals that round to a float form an interval, and on the grid of the multiples of a power of
ten only the two neighbours of the float can be the nearest member of that interval. The grids
are tried from the coarsest on.
-/

namespace BareMetal.Number

namespace Shortest

/-- Whether `d * 10 ^ e`, given as a quotient with denominator `4 * den`, reads back to `b`, whose
value is a quotient with denominator `den`. -/
def readsBack (b : Binary) (candidate num unit : Nat) : Bool :=
  let low := 4 * num - (if b.narrowBelow then unit else 2 * unit)
  let high := 4 * num + 2 * unit
  if b.significand % 2 = 0 then low ≤ candidate && candidate ≤ high
  else low < candidate && candidate < high

/-- The exponent `k` with `10 ^ k ≤ num / den < 10 ^ (k + 1)`. -/
def magnitude (num den : Nat) : Int :=
  if num ≥ den then (Decimal.width (num / den) : Int) - 1
  else
    let j := Decimal.width (den / num)
    if num * Nat.pow 10 (j - 1) ≥ den then 1 - j else -j

/-- The point of the grid of multiples of `10 ^ e` that reads back to `b` and is nearest to it, an
even digit before an odd one. -/
def onGrid? (b : Binary) (e : Int) : Option Decimal :=
  let (num, den) := b.ratio
  -- All quantities are multiplied by `scale` so that the grid and the float are whole.
  let num' := num * Nat.pow 10 (-e).toNat
  let den' := den * Nat.pow 10 e.toNat
  let unit := Nat.pow 2 b.exponent.toNat * Nat.pow 10 (-e).toNat
  let below := num' / den'
  let above := below + 1
  let fits k := readsBack b (4 * k * den') num' unit
  match fits below, fits above with
  | false, false => none
  | true, false => some ⟨below, e⟩
  | false, true => some ⟨above, e⟩
  | true, true =>
    let r := num' % den'
    if 2 * r < den' then some ⟨below, e⟩
    else if 2 * r > den' then some ⟨above, e⟩
    else some ⟨below + below % 2, e⟩

/-- Takes the zeros off the end of the digits. -/
def strip : Nat → Decimal → Decimal
  | 0, d => d
  | n + 1, d => if d.digits % 10 = 0 && d.digits ≠ 0 then strip n ⟨d.digits / 10, d.exponent + 1⟩ else d

/-- The shortest decimal that reads back to a positive `b`. -/
def decimal (b : Binary) : Decimal :=
  let (num, den) := b.ratio
  let top := magnitude num den
  let found := (List.range 18).findSome? fun (n : Nat) => onGrid? b (top - n)
  strip 20 (found.getD ⟨num, 0⟩)

end Shortest

/-- How a numeral is laid out. -/
structure Layout where
  /-- Numerals of at most this many places before the point are written without an exponent. -/
  wholePlaces : Int
  /-- At most this many zeros stand between the point and the first digit. -/
  leadingZeros : Int

namespace Layout

/-- Whole numbers up to 16 places and fractions from `0.00001` on need no exponent. -/
def plain : Layout where
  wholePlaces := 16
  leadingZeros := 4

/-- Digits with the point after the first one. -/
def pointed (ds : List Char) : List Char :=
  match ds with
  | [] => []
  | [d] => [d]
  | d :: rest => d :: '.' :: rest

/-- Writes a positive decimal. -/
def write (l : Layout) (d : Decimal) : List Char :=
  let ds := Nat.toDigits 10 d.digits
  let places := (ds.length : Int) + d.exponent
  if 0 ≤ d.exponent && places ≤ l.wholePlaces then
    ds ++ List.replicate d.exponent.toNat '0' ++ ['.', '0']
  else if 0 < places && places ≤ l.wholePlaces then
    ds.take places.toNat ++ '.' :: ds.drop places.toNat
  else if -l.leadingZeros ≤ places && places ≤ 0 then
    '0' :: '.' :: List.replicate (-places).toNat '0' ++ ds
  else
    pointed ds ++ 'e' :: (toString (places - 1)).toList

end Layout

/-- The shortest numeral of a float; none if it is not finite. -/
def shortest? (x : Float) : Option String :=
  (Binary.ofFloat? x).map fun b =>
    let sign := if b.negative then ['-'] else []
    let body := if b.significand = 0 then ['0', '.', '0'] else Layout.plain.write (Shortest.decimal b)
    .ofList (sign ++ body)

end BareMetal.Number
