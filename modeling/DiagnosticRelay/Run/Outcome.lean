import DiagnosticRelay.Report.Reading
import DiagnosticRelay.Text.Blank

/-!
# Outcomes of a run

Whatever the exit code, output that is not blank is taken for a report: with
findings the analyser fails on purpose.

## Main definitions

* `ProcessOutput`: what a finished process leaves.
* `Failure`: why a run gives no report.
* `Failure.message`: its wording.
* `ProcessOutput.report`: the report of an output.
-/

namespace DiagnosticRelay

/-- What a finished process leaves. -/
structure ProcessOutput where
  /-- The exit code; a process ended by a signal has none. -/
  code : Option Int
  stdout : String
  stderr : String
  deriving DecidableEq, Repr

/-- Why a run gives no report. -/
inductive Failure where
  /-- The process could not be started. -/
  | notStarted (reason : String)
  /-- The analyser failed without a report. -/
  | analyserFailed (reason : String)
  /-- The analyser succeeded without a report. -/
  | noReport
  /-- The output is not a report. -/
  | malformedReport (malformed : Report.Malformed)

/-- The wording of a failure. -/
def Failure.message : Failure → String
  | .notStarted reason => "Failed to run PHPStan: " ++ reason
  | .analyserFailed reason => "PHPStan failed: " ++ reason
  | .noReport => "PHPStan produced no output"
  | .malformedReport m => "Failed to parse PHPStan output: " ++ m.message

namespace ProcessOutput

/-- Whether a process succeeded. -/
def isSuccess (o : ProcessOutput) : Bool := o.code == some 0

/-- How a process ended, in words. -/
def ending (o : ProcessOutput) : String :=
  match o.code with
  | some code => "exited with status " ++ toString code
  | none => "terminated by a signal"

/-- What a process that printed no report says about its failure. -/
def complaint (o : ProcessOutput) : String :=
  let said := Text.trim o.stderr
  if said.isEmpty then o.ending else said

/-- The report of an output. -/
def report (o : ProcessOutput) : Except Failure Report :=
  if (Text.trim o.stdout).isEmpty then
    .error (if o.isSuccess then .noReport else .analyserFailed o.complaint)
  else (Report.parse o.stdout).mapError .malformedReport

end ProcessOutput

/-- What became of starting a process: its output, or why it did not start. -/
abbrev Execution := Except String ProcessOutput

/-- The report of an execution. -/
def Execution.report (e : Execution) : Except Failure Report :=
  match e with
  | .ok output => output.report
  | .error reason => .error (.notStarted reason)

end DiagnosticRelay
