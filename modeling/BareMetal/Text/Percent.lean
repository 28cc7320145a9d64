/-!
# Percent encoding

Characters that have a meaning of their own in an address, or none at all, are written as the
bytes of their UTF-8 form, each as a percent sign and two digits in base sixteen. Which characters
these are depends on the part of the address.
-/

namespace BareMetal.Text.Percent

/-- A byte as a percent sign and two digits. -/
def escape (b : UInt8) : List Char :=
  let ds := (Nat.toDigits 16 b.toNat).map Char.toUpper
  '%' :: (List.replicate (2 - ds.length) '0' ++ ds)

/-- The text with the characters that `keep` does not accept written as bytes. -/
def encode (keep : Char → Bool) (s : String) : String :=
  .ofList (s.toList.flatMap fun c => if keep c then [c] else (String.utf8EncodeChar c).flatMap escape)

/-- Whether a character is printed ASCII and none of the others given. -/
def isPlain (others : List Char) (c : Char) : Bool := '!' ≤ c && c ≤ '~' && !others.contains c

/-- A segment of a path. -/
def segment : String → String := encode (isPlain ['"', '#', '<', '>', '?', '\u0060', '\x7b', '\x7d'])

/-- A query. -/
def query : String → String := encode (isPlain ['"', '#', '<', '>', '\x27'])

/-- A key or value of a form, in which a blank is a plus sign. -/
def form (s : String) : String :=
  .ofList ((encode (fun c => c.isAlphanum || ['*', '-', '.', '_', ' '].contains c) s).toList.map fun c =>
    if c = ' ' then '+' else c)

end BareMetal.Text.Percent
