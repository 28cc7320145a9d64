import BareMetal.Operator.Options
import BareMetal.Operator.Startup
import BareMetal.Yaml.Block

/-!
# Manifests

The definitions of the resources as documents that can be handed to the cluster, and the words
with which an operator that ends at once takes its leave.
-/

namespace BareMetal

mutual

/-- The value as a value of YAML. -/
def Json.toYaml : Json → Yaml.Value
  | .null => .null
  | .bool b => .bool b
  | .int i => .int i
  | .float x => .float x
  | .str s => .str s
  | .arr items => .seq (itemsToYaml items)
  | .obj members => .map (membersToYaml members)

/-- The items as values of YAML. -/
def Json.itemsToYaml : List Json → List Yaml.Value
  | [] => []
  | j :: rest => Json.toYaml j :: Json.itemsToYaml rest

/-- The members as pairs of YAML. -/
def Json.membersToYaml : List (String × Json) → List (Yaml.Value × Yaml.Value)
  | [] => []
  | (k, v) :: rest => (.str k, Json.toYaml v) :: Json.membersToYaml rest

end

/-- A definition as a document with its mark. -/
def Cluster.Definition.manifest (d : Cluster.Definition) : String := "---\n" ++ d.toJson.canonical.toYaml.render

namespace CommandLine.UsageError

/-- What the user is told. -/
def words : UsageError → String
  | .help => "Usage: fleet-operator [OPTIONS] [COMMAND]"
  | .version => "fleet-operator 0.1.0"
  | .unknownFlag => "error: unexpected argument found"
  | .unknownCommand => "error: unrecognized subcommand"
  | .missingValue => "error: a value is required but none was supplied"
  | .unwantedValue => "error: unexpected value found"
  | .repeated => "error: an argument cannot be used multiple times"
  | e@(.invalidValue ..) => e.message?.getD ""

end CommandLine.UsageError

namespace Start

/-- What goes to the standard output. -/
def output : Start → String
  | .refused .help => CommandLine.UsageError.help.words ++ "\n"
  | .refused .version => CommandLine.UsageError.version.words ++ "\n"
  | .definitions => String.join (resourceDefinitions.map fun d => d.manifest ++ "\n")
  | _ => ""

/-- What goes to the standard error. -/
def complaint : Start → String
  | .refused .help | .refused .version | .definitions | .controllers .. => ""
  | .refused e => e.words ++ "\n"
  | .misconfigured f => s!"Error: {f.message}\n"

end Start

end BareMetal
