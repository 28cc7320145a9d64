import BareMetal.Text.Unprinted

/-!
# Quoted texts

A text between quotes in which every character can be seen: quotes, backslashes and unprinted
characters are written as escapes.
-/

namespace BareMetal.Text

/-- A character as it stands between quotes. -/
def escaped (c : Char) : List Char :=
  match c with
  | '\x00' => ['\\', '0']
  | '\t' => ['\\', 't']
  | '\n' => ['\\', 'n']
  | '\r' => ['\\', 'r']
  | '"' => ['\\', '"']
  | '\\' => ['\\', '\\']
  | c =>
    if isUnprinted c then ['\\', 'u', '\x7b'] ++ Nat.toDigits 16 c.toNat ++ ['\x7d'] else [c]

/-- A text between quotes. -/
def quoted (s : String) : String := "\"" ++ .ofList (s.toList.flatMap escaped) ++ "\""

end BareMetal.Text
