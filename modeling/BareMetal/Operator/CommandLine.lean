/-!
# Command lines

A command knows flags, which are written as words that begin with two dashes, and perhaps
subcommands. A flag is a switch or takes a value, which stands behind an equals sign or is the next
word. Words are taken up from left to right into a result; a value that is a word of its own is
taken up when the next flag, or the end, is reached. Flags that are not given may have their value
in the environment.
-/

namespace BareMetal.CommandLine

/-- Why a value is not accepted. -/
inductive ValueFault
  | missing
  | invalid (reason : String)
deriving DecidableEq

/-- Why the words of a command line are not taken up. -/
inductive UsageError
  /-- The help text is asked for. -/
  | help
  /-- The version is asked for. -/
  | version
  | unknownFlag
  | unknownCommand
  /-- A flag that takes a value has none. -/
  | missingValue
  /-- A switch has a value. -/
  | unwantedValue
  /-- A flag is given twice. -/
  | repeated
  | invalidValue (flag value reason : String)
deriving DecidableEq

/-- The name of the value that a flag takes: the name of the flag in capitals. -/
def valueName (flag : String) : String := flag.map fun c => if c = '-' then '_' else c.toUpper

/-- The wording of an error, where it depends on the value. -/
def UsageError.message? : UsageError → Option String
  | .invalidValue flag value reason =>
    let place := s!"--{flag} <{valueName flag}>"
    some s!"error: invalid value '{value}' for '{place}': {reason}"
  | _ => none

/-- What a flag does. -/
inductive Action (σ : Type)
  | switch (set : σ → σ)
  | value (take : String → σ → Except ValueFault σ)
  /-- Stops with an answer to the user. -/
  | stop (answer : UsageError)

/-- A flag of a command. -/
structure Flag (σ : Type) where
  name : String
  /-- The letter that stands for the flag after a single dash. -/
  letter : Option Char := none
  /-- The variable of the environment that may hold the value. -/
  envVar : Option String := none
  action : Action σ

/-- A command. -/
structure Command (σ : Type) where
  flags : List (Flag σ)
  /-- The names of its subcommands. -/
  subcommands : List String := []

/-- How far the words have been taken up. -/
structure State (σ : Type) where
  result : σ
  /-- The names of the flags taken up. -/
  given : List String := []
  /-- The flag that waits to be taken up, and its value if that has been read. -/
  pending : Option (Flag σ × Option String) := none
  /-- Only operands may follow. -/
  trailing : Bool := false

variable {σ : Type}

namespace State

/-- Takes up a flag with its value, if it has one. -/
def apply (s : State σ) (f : Flag σ) (value : Option String) : Except UsageError (State σ) :=
  match f.action, value with
  | .stop answer, _ => .error answer
  | .value _, none => .error .missingValue
  | .switch set, _ =>
    if s.given.contains f.name then .error .repeated
    else .ok { s with result := set s.result, given := f.name :: s.given }
  | .value take, some v =>
    if s.given.contains f.name then .error .repeated
    else match take v s.result with
      | .ok result => .ok { s with result := result, given := f.name :: s.given }
      | .error .missing => .error .missingValue
      | .error (.invalid reason) => .error (.invalidValue f.name v reason)

/-- Takes up the flag that waits. -/
def settle (s : State σ) : Except UsageError (State σ) :=
  match s.pending with
  | none => .ok s
  | some (f, value) => { s with pending := none }.apply f value

/-- Takes up the flag that waits, and then another one. -/
def settleAndApply (s : State σ) (f : Flag σ) (value : Option String) : Except UsageError (State σ) := do
  (← s.settle).apply f value

/-- Whether the next word is the value of a flag, unless it is a flag itself. -/
def awaitsValue (s : State σ) : Bool :=
  match s.pending with
  | some (_, none) => true
  | _ => false

/-- Takes a word as the value of the flag that waits. -/
def fill (s : State σ) (value : String) : State σ :=
  { s with pending := s.pending.map fun (f, _) => (f, some value) }

end State

namespace Command

/-- Takes up a flag written with two dashes, and the value behind its equals sign. -/
def long (c : Command σ) (s : State σ) (name : String) (value : Option String) :
    Except UsageError (State σ) :=
  match c.flags.find? (·.name = name) with
  | none => .error .unknownFlag
  | some f => match f.action, value with
    | .value _, some v => s.settleAndApply f (some v)
    | .value _, none => do return { ← s.settle with pending := some (f, none) }
    | _, some _ => .error .unwantedValue
    | _, none => s.settleAndApply f none

/-- Takes up the letters that follow a single dash. -/
def letters (c : Command σ) (s : State σ) : List Char → Except UsageError (State σ)
  | [] => .ok s
  | l :: rest => match c.flags.find? (·.letter = some l) with
    | none => .error .unknownFlag
    | some f => do c.letters (← s.settleAndApply f none) rest

/-- The error for a word that is no flag and no value. -/
def strayError (c : Command σ) (trailing : Bool) (word : String) : UsageError :=
  if c.subcommands.isEmpty || (trailing && c.subcommands.contains word) then .unknownFlag
  else .unknownCommand

/-- Name and value of a word with two dashes. -/
def long? (word : String) : Option (String × Option String) :=
  match word.toList with
  | '-' :: '-' :: rest =>
    let name := rest.takeWhile (· ≠ '=')
    some (.ofList name, if rest.contains '=' then some (.ofList (rest.drop (name.length + 1))) else none)
  | _ => none

/-- The letters of a word with a single dash. -/
def letters? (word : String) : Option (List Char) :=
  match word.toList with
  | '-' :: c :: rest => some (c :: rest)
  | _ => none

/-- Takes up words until they end, or up to a subcommand, which is given with the words after
it. -/
def scan (c : Command σ) (s : State σ) :
    List String → Except UsageError (State σ × Option (String × List String))
  | [] => .ok (s, none)
  | word :: rest =>
    if s.trailing then .error (c.strayError true word)
    else if !s.awaitsValue && c.subcommands.contains word then .ok (s, some (word, rest))
    else if word = "--" then c.scan { s with trailing := true } rest
    else match long? word, letters? word with
      | some (name, value), _ => do c.scan (← c.long s name value) rest
      | none, some ls => do c.scan (← c.letters s ls) rest
      | none, none =>
        if s.awaitsValue then c.scan (s.fill word) rest else .error (c.strayError false word)

/-- Takes up the value of every flag that is not given from the environment. -/
def fromEnvironment (env : String → Option String) (s : State σ) : List (Flag σ) → Except UsageError (State σ)
  | [] => .ok s
  | f :: rest =>
    match f.envVar.bind env with
    | none => fromEnvironment env s rest
    | some v =>
      if s.given.contains f.name then fromEnvironment env s rest
      else do fromEnvironment env (← s.apply f (some v)) rest

/-- Takes up the flag that waits, and then the environment. -/
def finish (c : Command σ) (env : String → Option String) (s : State σ) : Except UsageError (State σ) := do
  fromEnvironment env (← s.settle) c.flags

end Command

end BareMetal.CommandLine
