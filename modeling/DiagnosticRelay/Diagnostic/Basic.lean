import DiagnosticRelay.Diagnostic.Link
import DiagnosticRelay.Report.Basic
import DiagnosticRelay.Text.Units

/-!
# Diagnostics

A violation as an editor shows it: lines count from zero, columns count UTF-16
units, and all of them fit 32 bits.

## Main definitions

* `Severity`, `Diagnostic`: a finding in editor coordinates.
* `Diagnostic.ofViolation`: the diagnostic of a violation.
-/

namespace DiagnosticRelay

/-- How grave a finding is. -/
inductive Severity where
  | error
  | warning
  | info
  | hint
  deriving DecidableEq, Repr

/-- A finding in editor coordinates, on a single line. -/
structure Diagnostic where
  line : UInt32 := 0
  startColumn : UInt32 := 0
  /-- The column after the last unit. -/
  endColumn : UInt32 := 0
  severity : Severity := .error
  message : String
  /-- The identifier of the rule. -/
  code : Option String := none
  /-- The documentation of the rule. -/
  documentation : Option Url := none
  tip : Option String := none
  deriving DecidableEq, Repr

namespace Diagnostic

/-- The label under which editors show the findings. -/
def source : String := "PHPStan"

/-- The largest number in 32 bits. -/
def largest : Nat := UInt32.size - 1

/-- A number, or the largest one if it is larger. -/
def clamp (n : Nat) : UInt32 := UInt32.ofNat (min n largest)

/-- The number before a number of 64 bits; the smallest one has none and stays. -/
def lineBefore (n : Int64) : Int64 := if n = Int64.minValue then n else n - 1

/-- The line of a violation, counted from zero; one without a line is on the
first. -/
def lineOf (line : Option Int64) : UInt32 :=
  clamp (max (lineBefore (line.getD 0)) 0).toNatClampNeg

/-- The diagnostic of a violation: it covers as many columns as its message has
units. -/
def ofViolation (v : Violation) : Diagnostic where
  line := lineOf v.line
  endColumn := clamp (Text.units v.message)
  message := v.message
  code := v.identifier
  documentation := v.identifier.map Diagnostic.link
  tip := v.tip

end Diagnostic

end DiagnosticRelay
