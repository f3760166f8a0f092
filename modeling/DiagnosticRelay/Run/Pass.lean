import DiagnosticRelay.Run.Command
import DiagnosticRelay.Run.Outcome
import DiagnosticRelay.Store.Update

/-!
# One run of the analyser

A run is launched with the settings in force when it gets its turn and is
concluded with them, whatever happens to the settings in between.

## Main definitions

* `Launch`: what a run fixes at its turn.
* `Launch.conclude`: the store after an execution, and the summary of the run.
-/

namespace DiagnosticRelay

/-- What a finished run changed. -/
structure Summary where
  mode : ApplyMode
  /-- The files whose diagnostics have to be published again. -/
  touched : List Path
  /-- The status of a run of the whole project. -/
  status : Option String
  /-- The messages of the report that belong to no file. -/
  generalErrors : List String
  fileErrors : UInt64
  deriving DecidableEq, Repr

/-- The status of a run of the whole project. -/
def statusMessage (fileErrors : UInt64) : String :=
  if fileErrors = 0 then "done" else "found " ++ toString fileErrors.toNat ++ " violations"

/-- What a run fixes when it gets its turn. -/
structure Launch where
  root : Path
  settings : Settings
  /-- The file to analyse, in normal form; none for the whole project. -/
  target : Option Path
  /-- Whether the file had diagnostics. -/
  hadEntry : Bool
  deriving DecidableEq, Repr

namespace Launch

/-- The launch of a run at its turn. -/
def of (root : Path) (settings : Settings) (store : Store) (target : Option Path) : Launch :=
  let target := target.map Path.normalize
  { root, settings, target, hadEntry := target.any store.contains }

/-- The command line of a run. -/
def commandLine (l : Launch) : String := l.settings.commandLine l.root l.target

/-- How the reported paths of a run become local ones. -/
def mapping (l : Launch) : Mapping := ⟨l.root, l.settings.dockerVolumePath⟩

/-- Applies the report on a single file. Without findings the file's own entry
goes; otherwise the reported files change. -/
def applyToFile (l : Launch) (target : Path) (report : Report) (store : Store) :
    Store × List Path :=
  if report.hasFindings then
    let applied := l.mapping.apply report .merge store
    (applied.store, applied.touched)
  else if l.hadEntry && (store.remove target).2 then ((store.remove target).1, [target])
  else (store, [])

/-- Applies the report of a run. -/
def apply (l : Launch) (report : Report) (store : Store) : Store × Summary :=
  let fileErrors := report.totals.fileErrors
  match l.target with
  | none =>
    let applied := l.mapping.apply report .replace store
    (applied.store,
      { mode := .replace
        touched := applied.touched
        status := some (statusMessage fileErrors)
        generalErrors := report.errors
        fileErrors })
  | some target =>
    let applied := l.applyToFile target report store
    (applied.1,
      { mode := .merge
        touched := applied.2
        status := none
        generalErrors := report.errors
        fileErrors })

/-- The store after an execution, and the summary of the run or its failure. A
run that fails leaves the store as it is. -/
def conclude (l : Launch) (execution : Execution) (store : Store) :
    Store × Except Failure Summary :=
  match execution.report with
  | .error failure => (store, .error failure)
  | .ok report =>
    let applied := l.apply report store
    (applied.1, .ok applied.2)

end Launch

end DiagnosticRelay
