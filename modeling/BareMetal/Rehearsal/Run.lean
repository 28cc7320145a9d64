import BareMetal.Operator.Startup
import BareMetal.Rehearsal.Scene

/-!
# Rehearsals

A rehearsal runs the operator in a scene for a given time, shows it what the watch would show at
the times given, and writes down what it asks of the outside and when. Passes take no time, and
time goes on in milliseconds.
-/

namespace BareMetal.Rehearsal

/-- What has been asked up to now, the latest first, with the time of each step. -/
structure Log where
  now : Nat := 0
  steps : List (Nat × OperatorStep) := []

/-- Whether a step comes to anybody's notice. -/
def Scene.isNoticed (w : Scene) : OperatorStep → Bool
  | .service _ => w.serviceReached
  | _ => true

/-- Answers a step in a scene, and writes it down if it is noticed. -/
def Scene.record (w : Scene) (s : OperatorStep) : StateM Log s.Answer := do
  if w.isNoticed s then
    modify fun l => { l with steps := (l.now, s) :: l.steps }
  return w.answer s

/-- Goes on to a time: shows what is seen then, and makes the passes that are due. -/
def Scene.proceed (w : Scene) (sightings : List (Nat × Sighting)) (o : Operator) (now : Nat) :
    StateM Log Operator := do
  modify fun l => { l with now := now }
  let seen := sightings.filter (·.1 = now)
  Program.run w.record ((seen.foldl (fun o x => o.see now x.2) o).tick now)

/-- Rehearses the operator up to a time. -/
def Scene.rehearse (w : Scene) (s : Settings) (sightings : List (Nat × Sighting)) (time : Nat) :
    Except StartFault Unit × List (Nat × OperatorStep) :=
  let run : StateM Log (Except StartFault Unit) := do
    match ← Program.run w.record (Operator.start s).run with
    | .error f => return .error f
    | .ok o =>
      let _ ← (List.range time).foldlM (w.proceed sightings) o
      return .ok ()
  let (r, log) := run.run {}
  (r, log.steps.reverse)

end BareMetal.Rehearsal
