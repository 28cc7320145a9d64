import BareMetal.Number.Shortest

/-!
# JSON values

A JSON value with its object members in the order in which they were written. Whole numbers and
floats are kept apart. Two values denote the same data when their canonical forms agree, in which
members are sorted and the last of two members with one key counts.
-/

namespace BareMetal

/-- A JSON value. -/
inductive Json
  | null
  | bool (b : Bool)
  | int (i : Int)
  | float (x : Float)
  | str (s : String)
  | arr (items : List Json)
  | obj (members : List (String × Json))
deriving Inhabited

namespace Json

/-- The value of a list of texts. -/
def texts (ss : List String) : Json := .arr (ss.map .str)

/-- The value of an optional text. -/
def text? (s : Option String) : Json := (s.map Json.str).getD .null

/-- The value of the last member with a key, if the value is an object that has one. -/
def get? (j : Json) (key : String) : Option Json :=
  match j with
  | .obj members => (members.reverse.find? (·.1 = key)).map (·.2)
  | _ => none

/-- The text, if the value is one. -/
def asText? : Json → Option String
  | .str s => some s
  | _ => none

/-- The items, if the value is an array. -/
def asItems? : Json → Option (List Json)
  | .arr items => some items
  | _ => none

/-! ## Canonical form -/

/-- Writes a member into sorted members. -/
def insertMember (k : String) (v : Json) : List (String × Json) → List (String × Json)
  | [] => [(k, v)]
  | e :: rest =>
    if k < e.1 then (k, v) :: e :: rest
    else if k = e.1 then (k, v) :: rest
    else e :: insertMember k v rest

mutual

/-- The value with sorted members and one member for each key. -/
def canonical : Json → Json
  | .arr items => .arr (canonicalItems items)
  | .obj members => .obj (canonicalMembers members [])
  | j => j

/-- The canonical forms of items. -/
def canonicalItems : List Json → List Json
  | [] => []
  | j :: rest => canonical j :: canonicalItems rest

/-- Writes the canonical forms of members into sorted members. -/
def canonicalMembers : List (String × Json) → List (String × Json) → List (String × Json)
  | [], done => done
  | e :: rest, done => canonicalMembers rest (insertMember e.1 (canonical e.2) done)

end

/-! ## Writing -/

/-- The digits of a number below 65536 in base sixteen. -/
private def hex4 (n : Nat) : List Char :=
  let ds := Nat.toDigits 16 n
  List.replicate (4 - ds.length) '0' ++ ds

/-- A character as it stands inside quotes. -/
def escaped (c : Char) : List Char :=
  match c with
  | '"' => ['\\', '"']
  | '\\' => ['\\', '\\']
  | '\n' => ['\\', 'n']
  | '\r' => ['\\', 'r']
  | '\t' => ['\\', 't']
  | '\x08' => ['\\', 'b']
  | '\x0c' => ['\\', 'f']
  | c => if c.toNat < 0x20 then '\\' :: 'u' :: hex4 c.toNat else [c]

/-- A text in quotes. -/
def quoted (s : String) : String := "\"" ++ .ofList (s.toList.flatMap escaped) ++ "\""

mutual

/-- The value as compact text; a float that is not finite is written as `null`. -/
def compress : Json → String
  | .null => "null"
  | .bool b => if b then "true" else "false"
  | .int i => toString i
  | .float x => (Number.shortest? x).getD "null"
  | .str s => quoted s
  | .arr items => "[" ++ ",".intercalate (compressItems items) ++ "]"
  | .obj members => "\x7b" ++ ",".intercalate (compressMembers members) ++ "\x7d"

/-- Items as compact text. -/
def compressItems : List Json → List String
  | [] => []
  | j :: rest => compress j :: compressItems rest

/-- Members as compact text. -/
def compressMembers : List (String × Json) → List String
  | [] => []
  | e :: rest => (quoted e.1 ++ ":" ++ compress e.2) :: compressMembers rest

end

/-- The compact text of the canonical form: equal texts denote equal data. -/
def render (j : Json) : String := j.canonical.compress

end Json

end BareMetal
