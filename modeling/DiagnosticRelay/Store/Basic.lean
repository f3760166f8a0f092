import DiagnosticRelay.Diagnostic.Basic
import DiagnosticRelay.Path.Basic

/-!
# The diagnostic store

The diagnostics of every local file that has any. Paths with the same components
are one file; an entry keeps the spelling it was entered with first. The entries
stand in the order of their paths.

## Main definitions

* `Store`: the entries.
* `Store.get?`, `Store.set`, `Store.remove`: one file.
* `Store.paths`, `Store.clear`: the files that have diagnostics.
-/

namespace DiagnosticRelay

/-- The diagnostics of files, in the order of the paths. -/
structure Store where
  entries : List (Path × List Diagnostic) := []
  deriving DecidableEq, Repr

namespace Store

/-- No diagnostics at all. -/
def empty : Store := {}

/-- Enters the diagnostics of a file among entries in order. -/
def insertEntry (p : Path) (ds : List Diagnostic) :
    List (Path × List Diagnostic) → List (Path × List Diagnostic)
  | [] => [(p, ds)]
  | entry :: rest =>
    match Path.compare p entry.1 with
    | .lt => (p, ds) :: entry :: rest
    | .eq => (entry.1, ds) :: rest
    | .gt => entry :: insertEntry p ds rest

/-- The diagnostics of a file. -/
def get? (s : Store) (p : Path) : Option (List Diagnostic) :=
  (s.entries.find? fun entry => Path.Same entry.1 p).map (·.2)

/-- Whether a file has diagnostics. -/
def contains (s : Store) (p : Path) : Bool := s.entries.any fun entry => Path.Same entry.1 p

/-- The store without a file. -/
def erase (s : Store) (p : Path) : Store := ⟨s.entries.filter fun entry => ¬ Path.Same entry.1 p⟩

/-- The store with other diagnostics for a file; without any the file has no
entry. -/
def set (s : Store) (p : Path) (ds : List Diagnostic) : Store :=
  if ds.isEmpty then s.erase p else ⟨insertEntry p ds s.entries⟩

/-- Removes a file. The answer is whether it had diagnostics. -/
def remove (s : Store) (p : Path) : Store × Bool := (s.erase p, s.contains p)

/-- The files with diagnostics, in order. -/
def paths (s : Store) : List Path := s.entries.map (·.1)

/-- Removes every file. The answer is which ones had diagnostics. -/
def clear (s : Store) : Store × List Path := (empty, s.paths)

/-- How many files have diagnostics. -/
def size (s : Store) : Nat := s.entries.length

/-- Whether no file has diagnostics. -/
def isEmpty (s : Store) : Bool := s.entries.isEmpty

end Store

end DiagnosticRelay
