import DiagnosticRelay.CommandLine
import DiagnosticRelay.Run.Pass
import DiagnosticRelay.Server.Dialogue

/-!
# Checking once

A check is a single run with the settings of the project. Its findings go to the
standard output, one entry each, and its remarks to the standard error. Numbers have 32
bits. A sum that takes more is a fault, which ends the check where it stands.

## Main definitions

* `Printout`: what a program prints, and its exit code.
* `Check.Fault`, `Check.plus`: addition that may be a fault.
* `Check.printed`: texts printed up to the first fault.
* `Check.printout`: the printout of a run.
* `Check.run`: the check of a request.
-/

namespace DiagnosticRelay

/-- What a program prints, and its exit code. -/
structure Printout where
  code : Nat
  stdout : String := ""
  stderr : String := ""
  deriving DecidableEq, Repr

namespace Check

/-- A text as a line. -/
def line (text : String) : String := text ++ "\n"

/-- What ends a check before its time. -/
inductive Fault where
  /-- A sum takes more than 32 bits. -/
  | overflow
  deriving DecidableEq, Repr

/-- The wording of a fault. -/
def Fault.message : Fault → String
  | .overflow => "attempt to add with overflow"

/-- The sum of two numbers. -/
def plus (a b : UInt32) : Except Fault UInt32 :=
  if a.toNat + b.toNat < UInt32.size then .ok (a + b) else .error .overflow

/-- A count from zero as people count. -/
def ordinal (n : UInt32) : Except Fault String :=
  return toString (← plus n 1).toNat

/-- The code of a diagnostic in brackets, if it has one. -/
def bracketed : Option String → String
  | none => ""
  | some code => " [" ++ code ++ "]"

/-- The entry of a diagnostic. -/
def entry (p : Path) (d : Diagnostic) : Except Fault String := do
  let row ← ordinal d.line
  let column ← ordinal d.startColumn
  return line (p.display ++ ":" ++ row ++ ":" ++ column ++ ": " ++ d.message ++ bracketed d.code)

/-- The entries of a store, in the order of its paths. -/
def entries (store : Store) : List (Except Fault String) :=
  store.entries.flatMap fun e => e.2.map (entry e.1)

/-- Texts in a row up to the first fault, and that fault. -/
def printed : List (Except Fault String) → String × Option Fault
  | [] => ("", none)
  | .error fault :: _ => ("", some fault)
  | .ok text :: rest => (text ++ (printed rest).1, (printed rest).2)

/-- The lines about a run that belong to no file. -/
def remarks (summary : Summary) : List String :=
  summary.generalErrors.map (fun text => line ("warning: " ++ text))
    ++ (summary.status.map line).toList

/-- The printout of a run that left a store. A fault among the entries ends it, with a code
of its own. The place of the fault, which is told with its wording, is left out. -/
def printout (store : Store) : Except Failure Summary → Printout
  | .error failure => { code := 2, stderr := line ("Error: " ++ failure.message) }
  | .ok summary =>
    match printed (entries store) with
    | (stdout, some fault) => { code := 101, stdout, stderr := line fault.message }
    | (stdout, none) =>
      { code := if store.isEmpty then 0 else 1
        stdout
        stderr := String.join (remarks summary) }

/-- The root of a request. -/
def root (here : Path) (r : CheckRequest) : Path :=
  r.root.elim here fun root => here.join (Path.ofString root)

/-- The file of a request. -/
def file (here : Path) (r : CheckRequest) : Option Path :=
  r.file.map fun file => here.join (Path.ofString file)

/-- The check of a request in a directory. -/
def run (here : Path) (r : CheckRequest) : Dialogue Printout := do
  let settings ← Dialogue.consulting (root here r)
  let launch := Launch.of (root here r) settings {} (file here r)
  let execution ← Dialogue.executing launch.commandLine launch.root
  let (store, outcome) := launch.conclude execution {}
  return printout store outcome

end Check

namespace Instruction

/-- The printout of a usage fault. -/
def refusal (fault : UsageFault) : Printout :=
  { code := 2, stderr := fault.message ++ "\n\nFor more information, try '--help'.\n" }

/-- What an instruction prints in a directory. To serve prints nothing by itself. -/
def printing (here : Path) : Instruction → Dialogue Printout
  | .serve => return { code := 0 }
  | .check request => Check.run here request
  | .help topic => return { code := 0, stdout := topic.text }
  | .version => return { code := 0, stdout := versionText }

/-- What arguments print in a directory. -/
def printingArguments (here : Path) (arguments : List String) : Dialogue Printout :=
  match ofArguments arguments with
  | .ok instruction => instruction.printing here
  | .error fault => return refusal fault

end Instruction

end DiagnosticRelay
