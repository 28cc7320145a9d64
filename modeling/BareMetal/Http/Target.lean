import BareMetal.Text.Percent

/-!
# Targets of requests

The target of a request is the path and the query of its address, in the form in which they are
sent. Taking an address apart follows the rules for addresses of the web: a backslash counts as a
slash, `.` and `..` are resolved, a fragment is dropped, and characters that may not stand in a
path or query are percent-encoded.
-/

namespace BareMetal.Http

/-- Where a request goes within a server. -/
structure Target where
  path : String
  query : Option String := none
deriving DecidableEq, Inhabited

namespace Target

/-! ## Queries -/

/-- One parameter of a query. -/
def parameter (e : String × String) : String := Text.Percent.form e.1 ++ "=" ++ Text.Percent.form e.2

/-- The target with parameters added to its query. -/
def withParameters (t : Target) (es : List (String × String)) : Target :=
  let old := (t.query.filter (· ≠ "")).toList
  match old ++ es.map parameter with
  | [] => { t with query := none }
  | parts => { t with query := some ("&".intercalate parts) }

/-- The parameters of the query, still encoded. -/
def parameters (t : Target) : List (String × String) :=
  match t.query with
  | none | some "" => []
  | some q => (q.splitOn "&").map fun part =>
    match part.splitOn "=" with
    | [] => ("", "")
    | key :: values => (key, "=".intercalate values)

/-! ## Paths -/

/-- Whether a character ends a segment of a path. -/
private def isSlash (c : Char) : Bool := c == '/' || c == '\\'

/-- Whether a segment stands for the path up to here, or, with two dots, for the one above it. -/
private def isDots (n : Nat) (s : String) : Bool :=
  let dots := List.replicate n '.'
  (s.toLower.replace "%2e" ".").toList = dots

/-- Adds a segment to the segments before it, the last of which comes first. -/
private def push (done : List String) (s : String) (isLast : Bool) : List String :=
  let done' := if isDots 2 s then done.drop 1 else done
  if isDots 1 s || isDots 2 s then if isLast then "" :: done' else done'
  else Text.Percent.segment s :: done

/-- Resolves segments, the last of those before them coming first. -/
private def resolve (done : List String) : List String → List String
  | [] => done.reverse
  | s :: rest => resolve (push done s rest.isEmpty) rest

/-- The path that the text after a host writes. -/
def normalPath (cs : List Char) : String :=
  let rest := match cs with
    | [] => []
    | c :: more => if isSlash c then more else c :: more
  "/" ++ "/".intercalate (resolve [] ((String.ofList (rest.map fun c => if isSlash c then '/' else c)).splitOn "/"))

/-! ## Addresses -/

/-- Whether a character is a control character or a blank. -/
private def isControl (c : Char) : Bool := c.toNat ≤ 0x20

/-- The text without control characters at its ends, and without line breaks and tabs. -/
private def cleaned (s : String) : List Char :=
  let cs := ((s.toList.dropWhile isControl).reverse.dropWhile isControl).reverse
  cs.filter fun c => c != '\t' && c != '\n' && c != '\r'

/-- What follows the scheme of an address of the web. -/
private def afterScheme? (cs : List Char) : Option (List Char) :=
  let scheme := (cs.takeWhile (· != ':')).map Char.toLower
  if scheme = "http".toList || scheme = "https".toList then
    some ((cs.drop (scheme.length + 1)).dropWhile isSlash)
  else none

/-- The target of an absolute address, none if the text is no address of the web. -/
def ofAddress? (s : String) : Option Target := do
  let rest ← afterScheme? (cleaned s)
  let isEnd (c : Char) : Bool := isSlash c || c == '?' || c == '#'
  let host := rest.takeWhile (!isEnd ·)
  if host.isEmpty then none
  else
    let tail := (rest.dropWhile (!isEnd ·)).takeWhile (· != '#')
    let path := normalPath (tail.takeWhile (· != '?'))
    match tail.dropWhile (· != '?') with
    | [] => some ⟨path, none⟩
    | _ :: query => some ⟨path, some (Text.Percent.query (.ofList query))⟩

end Target

end BareMetal.Http
