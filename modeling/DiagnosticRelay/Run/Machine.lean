import DiagnosticRelay.Run.Guard
import DiagnosticRelay.Run.Pass

/-!
# Overlapping runs

Runs are started, get their turn, are executed and concluded, and may be dropped
at any time. A run reads the settings and the store when it gets its turn.

## Main definitions

* `Run`: a run that has not ended.
* `Machine`: the store, the settings and the runs.
* `Machine.start`, `Machine.cancel`, `Machine.settle`, `Machine.finish`: the
  steps.
-/

namespace DiagnosticRelay

/-- A run that has not ended. -/
structure Run where
  id : String
  /-- The file to analyse; none for the whole project. -/
  target : Option Path
  /-- What the run fixed at its turn; absent before. -/
  launch : Option Launch := none
  deriving DecidableEq, Repr

/-- What a run covers. -/
def Run.key (r : Run) : RunKey := .ofTarget r.target

/-- Whether a run is being executed. -/
def Run.isExecuting (r : Run) : Bool := r.launch.isSome

/-- The store, the settings in force and the runs in the order of their start. -/
structure Machine where
  root : Path
  settings : Settings := {}
  store : Store := {}
  runs : List Run := []
  deriving DecidableEq, Repr

/-- The end of a run. -/
structure Ended where
  id : String
  outcome : Except Failure Summary

namespace Machine

/-- The requests of the runs for their turns. -/
def guard (m : Machine) : Guard String := ⟨m.runs.map fun r => (r.id, r.key)⟩

/-- Starts a run. -/
def start (m : Machine) (id : String) (target : Option Path) : Machine :=
  { m with runs := m.runs ++ [{ id, target := target.map Path.normalize }] }

/-- Drops a run. -/
def cancel (m : Machine) (id : String) : Machine :=
  { m with runs := m.runs.filter fun r => r.id ≠ id }

/-- Puts settings in force. -/
def configure (m : Machine) (settings : Settings) : Machine := { m with settings }

/-- Whether a run has its turn and has not been launched. -/
def isDue (m : Machine) (r : Run) : Bool := !r.isExecuting && m.guard.hasTurn (r.id, r.key)

/-- The launch of a run now. -/
def launch (m : Machine) (r : Run) : Launch := .of m.root m.settings m.store r.target

/-- A run after the others had a chance to get their turn. -/
def advance (m : Machine) (r : Run) : Run :=
  if m.isDue r then { r with launch := some (m.launch r) } else r

/-- The runs that are launched when the machine settles, in the order of their
start. -/
def due (m : Machine) : List (Run × Launch) :=
  (m.runs.filter m.isDue).map fun r => (r, m.launch r)

/-- Launches every run that has its turn. -/
def settle (m : Machine) : Machine := { m with runs := m.runs.map m.advance }

/-- The run of an id, if it is being executed. -/
def executing? (m : Machine) (id : String) : Option Launch :=
  (m.runs.find? fun r => r.id = id).bind (·.launch)

/-- Concludes a run that is being executed. Any other id changes nothing. -/
def finish (m : Machine) (id : String) (execution : Execution) : Machine × Option Ended :=
  match m.executing? id with
  | none => (m, none)
  | some launch =>
    let concluded := launch.conclude execution m.store
    ({ m.cancel id with store := concluded.1 }, some ⟨id, concluded.2⟩)

end Machine

end DiagnosticRelay
