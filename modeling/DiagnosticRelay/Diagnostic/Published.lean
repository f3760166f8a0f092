import DiagnosticRelay.Diagnostic.Basic
import DiagnosticRelay.Json.Value

/-!
# Published diagnostics

The form in which diagnostics go to an editor. A tip becomes related information
at the place of the diagnostic itself.

## Main definitions

* `Span`: a range of a document.
* `Published`: a diagnostic published for a document.
* `Diagnostic.publish`: the published form of a diagnostic.
* `Published.toJson`: its JSON.
-/

namespace DiagnosticRelay

open Json (Value)

/-- A position in a document. -/
structure Spot where
  line : UInt32
  character : UInt32
  deriving DecidableEq, Repr

/-- A range of a document; the end is exclusive. -/
structure Span where
  start : Spot
  stop : Spot
  deriving DecidableEq, Repr

/-- A remark about a diagnostic. -/
structure Remark where
  document : Url
  span : Span
  message : String
  deriving DecidableEq, Repr

/-- A diagnostic as it is published. -/
structure Published where
  span : Span
  severity : Severity
  code : Option String
  documentation : Option Url
  message : String
  related : Option (List Remark)
  deriving DecidableEq, Repr

/-- The number of a severity. -/
def Severity.number : Severity → Nat
  | .error => 1
  | .warning => 2
  | .info => 3
  | .hint => 4

/-- The range of a diagnostic. -/
def Diagnostic.span (d : Diagnostic) : Span :=
  ⟨⟨d.line, d.startColumn⟩, ⟨d.line, d.endColumn⟩⟩

/-- The form of a diagnostic that is published for a document. -/
def Diagnostic.publish (document : Url) (d : Diagnostic) : Published where
  span := d.span
  severity := d.severity
  code := d.code
  documentation := d.documentation
  message := d.message
  related := d.tip.map fun tip => [⟨document, d.span, tip⟩]

/-- The JSON of a position. -/
def Spot.toJson (s : Spot) : Value :=
  .object [("line", .int s.line.toNat), ("character", .int s.character.toNat)]

/-- The JSON of a range. -/
def Span.toJson (s : Span) : Value :=
  .object [("start", s.start.toJson), ("end", s.stop.toJson)]

/-- The JSON of a remark. -/
def Remark.toJson (r : Remark) : Value :=
  .object [
    ("location", .object [("uri", .string r.document.render), ("range", r.span.toJson)]),
    ("message", .string r.message)]

/-- A member that stands only with a value. -/
def memberOf (key : String) (value : Option Value) : List (String × Value) :=
  (value.map fun v => (key, v)).toList

/-- The JSON of a published diagnostic; what is absent is left out. -/
def Published.toJson (p : Published) : Value :=
  .object (
    [("range", p.span.toJson), ("severity", Value.int p.severity.number)]
    ++ memberOf "code" (p.code.map Value.string)
    ++ memberOf "codeDescription" (p.documentation.map fun u => .object [("href", .string u.render)])
    ++ [("source", .string Diagnostic.source), ("message", .string p.message)]
    ++ memberOf "relatedInformation" (p.related.map fun rs => .array (rs.map Remark.toJson)))

end DiagnosticRelay
