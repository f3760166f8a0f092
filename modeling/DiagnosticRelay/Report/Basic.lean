/-!
# Analysis reports

What one invocation of the analyser has to say: violations by the path it
reported, counters, and messages that belong to no file.

## Main definitions

* `Violation`, `FileResult`, `Totals`, `Report`: the parts of a report.
* `Report.findings`: the files with at least one violation, by reported path.
-/

namespace DiagnosticRelay

/-- A single reported issue. The line counts from one; some issues have none. -/
structure Violation where
  message : String
  line : Option Int64 := none
  identifier : Option String := none
  ignorable : Bool := false
  tip : Option String := none
  deriving DecidableEq, Repr

/-- The issues of one file; the list itself may be missing. -/
structure FileResult where
  messages : Option (List Violation) := none
  deriving DecidableEq, Repr

/-- Aggregate counters. -/
structure Totals where
  errors : UInt64 := 0
  fileErrors : UInt64 := 0
  deriving DecidableEq, Repr

/-- Parsed output of one invocation. The files stand in increasing order of
their reported paths, each path once. -/
structure Report where
  files : List (String × FileResult) := []
  totals : Totals := {}
  errors : List String := []
  deriving DecidableEq, Repr

/-- The violations of a file. -/
def FileResult.violations (result : FileResult) : List Violation := result.messages.getD []

/-- The files with at least one violation, in the order of their paths. -/
def Report.findings (report : Report) : List (String × List Violation) :=
  (report.files.map fun file => (file.1, file.2.violations)).filter fun file => !file.2.isEmpty

/-- Whether any file has a violation. -/
def Report.hasFindings (report : Report) : Bool := !report.findings.isEmpty

/-- Enters the result of a path; a result already there is replaced. -/
def insertFile (path : String) (result : FileResult) :
    List (String × FileResult) → List (String × FileResult)
  | [] => [(path, result)]
  | (p, r) :: rest =>
    if path = p then (path, result) :: rest
    else if path < p then (path, result) :: (p, r) :: rest
    else (p, r) :: insertFile path result rest

end DiagnosticRelay
