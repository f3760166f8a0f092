import DiagnosticRelay.Path.Basic
import DiagnosticRelay.Url.Reading

/-!
# URLs and file paths

A URL names a local file when it has segments and no host but `localhost`. An
absolute path is written as a `file` URL, each component percent-encoded.

## Main definitions

* `Url.filePath?`: the local file of a URL.
* `Url.ofFilePath?`: the URL of an absolute path.
-/

namespace DiagnosticRelay.Url

/-- Whether a host is this machine. -/
def isLocal : Option Host → Bool
  | none => true
  | some host => host == .domain "localhost".toList

/-- Whether octets end in a letter with `:` or `|` behind it, after more. -/
def endsInDrive (octets : Octets) : Bool :=
  match octets.reverse with
  | mark :: letter :: _ :: _ =>
    isDrive [Char.ofNat letter.toNat, Char.ofNat mark.toNat] && letter < 0x80
  | _ => false

/-- The path of segments. -/
def pathOfSegments (segments : List (List Char)) : Path :=
  let octets := segments.flatMap fun segment => Path.separator :: decode segment
  ⟨if endsInDrive octets then octets ++ [Path.separator] else octets⟩

/-- The local file of a URL. -/
def filePath? (u : Url) : Option Path :=
  match u.path with
  | .undivided _ => none
  | .segments [] => none
  | .segments list => if isLocal u.host? then some (pathOfSegments list) else none

/-- The segments of the components of an absolute path. -/
def segmentsOfComponents (components : List Path.Component) : List (List Char) :=
  match components with
  | [] => [[]]
  | list => list.map fun component => encode segmentSet component.text

/-- The URL of an absolute path. -/
def ofFilePath? (p : Path) : Option Url :=
  match p.components with
  | .root :: rest =>
    some {
      scheme := "file".toList
      authority := some {}
      path := .segments (segmentsOfComponents rest) }
  | _ => none

end DiagnosticRelay.Url
