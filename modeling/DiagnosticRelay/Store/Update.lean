import DiagnosticRelay.Store.Basic

/-!
# Updating the store from reports

Reports name files as the analyser sees them. When it runs in a container, the
paths below the mount point stand for those below the workspace root. A report
on the whole project replaces the store; a report on some files updates those.

## Main definitions

* `Mapping`: how reported paths become local ones.
* `Mapping.localPath`: the local path of a reported one.
* `Mapping.apply`: the store after a report, and what it touched.
-/

namespace DiagnosticRelay

/-- Where the analyser sees the workspace. -/
structure Mapping where
  /-- The workspace root. -/
  root : Path
  /-- The mount point the analyser reports instead; empty without one. -/
  mount : String := ""
  deriving DecidableEq, Repr

/-- How a report is combined with the store. -/
inductive ApplyMode where
  /-- The report is the whole picture. -/
  | replace
  /-- Only the files of the report change. -/
  | merge
  deriving DecidableEq, Repr

/-- What applying a report did. -/
structure Applied where
  store : Store
  /-- Whether any file was entered. -/
  processed : Bool
  /-- The files whose diagnostics may have changed, each once. -/
  touched : List Path
  deriving DecidableEq, Repr

namespace Mapping

/-- The rest of a reported path below the mount point. -/
def belowMount? (m : Mapping) (reported : Path) : Option Path :=
  if m.mount.isEmpty then none else reported.stripPrefix? (Path.ofString m.mount)

/-- The local path of a reported one, in normal form. -/
def localPath (m : Mapping) (reported : String) : Path :=
  let p := Path.ofString reported
  match m.belowMount? p with
  | some rest => (m.root.join rest).normalize
  | none => p.normalize

/-- Adds a path to a list that does not mention it yet. -/
def touch (touched : List Path) (p : Path) : List Path :=
  if touched.any fun q => Path.Same q p then touched else touched ++ [p]

/-- Enters the violations of one file. -/
def enter (m : Mapping) (applied : Applied) (file : String × List Violation) : Applied :=
  let p := m.localPath file.1
  { store := applied.store.set p (file.2.map Diagnostic.ofViolation)
    processed := true
    touched := touch applied.touched p }

/-- The state before the files of a report are entered. -/
def start (mode : ApplyMode) (store : Store) : Applied :=
  match mode with
  | .replace => { store := store.clear.1, processed := false, touched := store.clear.2 }
  | .merge => { store, processed := false, touched := [] }

/-- The store after a report, and what it touched. -/
def apply (m : Mapping) (report : Report) (mode : ApplyMode) (store : Store) : Applied :=
  report.findings.foldl m.enter (start mode store)

end Mapping

end DiagnosticRelay
