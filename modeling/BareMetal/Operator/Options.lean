import BareMetal.Logging
import BareMetal.Operator.CommandLine
import BareMetal.Settings

/-!
# The command line of the operator

The operator runs its controllers, which is what it does when nothing else is asked for, or prints
the definitions of its resources. Every setting is a flag and a variable of the environment; a
flag counts before the variable, and the variable before the default.
-/

namespace BareMetal

open CommandLine

/-! ## Settings by name -/

/-- Where the value of a setting is kept, and how it is written. -/
inductive Slot
  | text (get : Settings → String) (set : String → Settings → Settings)
  /-- The path of a file, which is never empty. -/
  | path (get : Settings → String) (set : String → Settings → Settings)
  /-- A text that may be left out; an empty one counts as left out. -/
  | optional (get : Settings → Option String) (set : Option String → Settings → Settings)
  | span (get : Settings → Span) (set : Span → Settings → Settings)

/-- A setting: its flag, its variable and its place. -/
structure Setting where
  flag : String
  envVar : String
  slot : Slot

namespace Setting

/-- All settings in the order of the help text. -/
def all : List Setting := [
  ⟨"namespace", "NAMESPACE", .text (·.secretSpace) fun v s => { s with secretSpace := v }⟩,
  ⟨"credential-secret", "EQUINIX_SECRET",
    .text (·.credentialSecret) fun v s => { s with credentialSecret := v }⟩,
  ⟨"metal-api-url", "METAL_API_URL", .text (·.metalApiUrl) fun v s => { s with metalApiUrl := v }⟩,
  ⟨"join-token", "TOKEN", .optional (·.joinToken) fun v s => { s with joinToken := v }⟩,
  ⟨"bootstrap-config", "BOOTSTRAP_CONFIG",
    .path (·.bootstrapPath) fun v s => { s with bootstrapPath := v }⟩,
  ⟨"iso-url", "ISO_URL", .text (·.isoUrl) fun v s => { s with isoUrl := v }⟩,
  ⟨"ipxe-script-url", "IPXE_SCRIPT_URL",
    .text (·.ipxeScriptUrl) fun v s => { s with ipxeScriptUrl := v }⟩,
  ⟨"initial-ipxe-script-url", "INITIAL_IPXE_SCRIPT_URL",
    .text (·.initialIpxeScriptUrl) fun v s => { s with initialIpxeScriptUrl := v }⟩,
  ⟨"default-interface", "DEFAULT_INTERFACE",
    .text (·.defaultInterface) fun v s => { s with defaultInterface := v }⟩,
  ⟨"ingress-service", "INGRESS_SERVICE",
    .text (·.ingressService) fun v s => { s with ingressService := v }⟩,
  ⟨"ingress-namespace", "INGRESS_NAMESPACE",
    .text (·.ingressSpace) fun v s => { s with ingressSpace := v }⟩,
  ⟨"poll-interval", "POLL_INTERVAL", .span (·.pollInterval) fun v s => { s with pollInterval := v }⟩,
  ⟨"ready-check-interval", "READY_CHECK_INTERVAL",
    .span (·.readyCheckInterval) fun v s => { s with readyCheckInterval := v }⟩]

/-- Takes up the value of a setting. -/
def take (x : Setting) (v : String) (s : Settings) : Except ValueFault Settings :=
  match x.slot with
  | .text _ set => .ok (set v s)
  | .path _ set => if v.isEmpty then .error .missing else .ok (set v s)
  | .optional _ set => .ok (set (if v.isEmpty then none else some v) s)
  | .span _ set =>
    match Span.parse v with
    | .ok span => .ok (set span s)
    | .error e => .error (.invalid e.message)

end Setting

/-! ## Commands -/

/-- What a command line asks for. -/
structure Invocation where
  /-- Whether to print the definitions of the resources and do nothing else. -/
  printsDefinitions : Bool := false
  logFormat : Option LogFormat := none
  /-- The settings, if the controllers were named. -/
  settings : Option Settings := none

namespace Invocation

/-- The flag of a setting. -/
private def settingFlag (x : Setting) : Flag Invocation where
  name := x.flag
  envVar := some x.envVar
  action := .value fun v i => do return { i with settings := some (← x.take v (i.settings.getD .standard)) }

/-- The flag of the log format. -/
private def logFormatFlag : Flag Invocation where
  name := "log-format"
  envVar := some "LOG_FORMAT"
  action := .value fun v i =>
    match LogFormat.parse v with
    | .ok f => .ok { i with logFormat := some f }
    | .error e => .error (.invalid e)

/-- The flag that asks for help. -/
private def helpFlag : Flag Invocation := { name := "help", letter := some 'h', action := .stop .help }

/-- The operator. -/
def operator : Command Invocation where
  flags := [
    { name := "crd", action := .switch fun i => { i with printsDefinitions := true } },
    logFormatFlag, helpFlag,
    { name := "version", letter := some 'V', action := .stop .version }]
  subcommands := ["controller", "help"]

/-- The settings of the controllers. -/
private def settingFlags : List (Flag Invocation) := Setting.all.map settingFlag

/-- The subcommand that runs the controllers. -/
def controller : Command Invocation where
  flags := settingFlags ++ [helpFlag, logFormatFlag]

/-- The answer to a request for the help on the words given. -/
private def helpAnswer : List String → UsageError
  | [] | ["controller"] | ["help"] => .help
  | _ => .unknownCommand

/-- Whether the log format was among the words. -/
private def hasFormat (s : State Invocation) : Bool := s.given.contains logFormatFlag.name

/-- Reads a command line. Of two log formats the inner one counts, unless it is not among the words
and the outer one is. -/
def parse (env : String → Option String) (words : List String) : Except UsageError Invocation := do
  let (outer, command) ← operator.scan ⟨{}, [], none, false⟩ words
  match command with
  | none => return (← operator.finish env outer).result
  | some ("help", rest) => throw (helpAnswer rest)
  | some (_, rest) =>
    let (inner, _) ← controller.scan ⟨{ settings := some .standard }, [], none, false⟩ rest
    let inner ← inner.settle
    let full ← controller.finish env inner
    let outer ← outer.settle
    let whole ← operator.finish env outer
    return { whole.result with
      settings := full.result.settings
      logFormat := if hasFormat outer && !hasFormat inner then whole.result.logFormat
        else full.result.logFormat }

/-- The settings: those read, or else the ones of the environment. -/
def resolve (i : Invocation) (env : String → Option String) : Except UsageError Settings :=
  match i.settings with
  | some s => .ok s
  | none => do
    let s ← Command.fromEnvironment env ⟨{ settings := some .standard }, [], none, false⟩ settingFlags
    return s.result.settings.getD .standard

end Invocation

/-! ## The start of the operator -/

/-- What the operator does first. -/
inductive Start
  /-- Answers the user, or tells what is wrong with the command line. -/
  | refused (e : UsageError)
  /-- Prints the definitions of the resources. -/
  | definitions
  /-- Ends because of the settings. -/
  | misconfigured (f : Failure)
  | controllers (s : Settings) (format : LogFormat)

namespace Start

/-- What a command line leads to. -/
def ofWords (env : String → Option String) (words : List String) : Start :=
  match Invocation.parse env words with
  | .error e => .refused e
  | .ok i =>
    if i.printsDefinitions then .definitions
    else match i.resolve env with
      | .error e => .refused e
      | .ok s => match s.validate with
        | .error f => .misconfigured f
        | .ok () => .controllers s (i.logFormat.getD .json)

/-- The exit code of an operator that ends at once. -/
def exitCode : Start → Nat
  | .refused .help | .refused .version | .definitions | .controllers .. => 0
  | .misconfigured _ => 1
  | .refused _ => 2

end Start

end BareMetal
