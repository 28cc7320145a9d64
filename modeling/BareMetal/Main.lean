import BareMetal.Operator.Manifest

/-!
# The operator

Reads the command line and the environment, and does what can be done without a cluster: prints the
definitions of the resources, or tells what is wrong.
-/

open BareMetal

/-- The variables of the environment that the operator reads. -/
def operatorVariables : List String := "LOG_FORMAT" :: Setting.all.map (·.envVar)

/-- Why the controllers do not run. -/
def unreachable : StartFault := .noCluster (.unavailable "no cluster is configured")

/-- Runs the operator. -/
def main (words : List String) : IO UInt32 := do
  let env ← operatorVariables.mapM fun name => do return (name, ← IO.getEnv name)
  let start := Start.ofWords (fun name => (env.lookup name).join) words
  IO.print start.output
  IO.eprint start.complaint
  match start with
  | .controllers .. =>
    IO.eprintln s!"Error: {unreachable.message}"
    return 1
  | _ => return start.exitCode.toUInt32
