import BareMetal.Text.Blank

/-!
# Log formats

Logs are written as JSON, one object a line, or as text for people.
-/

namespace BareMetal

/-- How logs are written. -/
inductive LogFormat
  | json | text
deriving DecidableEq, Inhabited

namespace LogFormat

/-- The name of a format. -/
def name : LogFormat → String
  | json => "json"
  | text => "text"

/-- The format with a name, in capital or small letters, or why there is none. -/
def parse (s : String) : Except String LogFormat :=
  let s := Text.lowerAscii s
  if s = "json" then .ok .json
  else if s = "text" || s = "plain" then .ok .text
  else .error s!"unknown log format '{s}', expected json or text"

end LogFormat

end BareMetal
