import DiagnosticRelay.Glob.Reading
import DiagnosticRelay.Path.Basic
import DiagnosticRelay.Settings.Basic

/-!
# What starts a run

A saved file starts a run of its own when it is a PHP file. A changed file starts
a run of the whole project when the watch glob matches its path as seen from the
workspace root.

## Main definitions

* `Path.isPhp`: whether a saved file is analysed.
* `Glob.watches`, `Settings.watches`: whether changed files start a run.
-/

namespace DiagnosticRelay

/-- An ASCII letter in lower case, any other octet as it is. -/
def lowerOctet (b : UInt8) : UInt8 := if 0x41 ≤ b ∧ b ≤ 0x5A then b + 0x20 else b

/-- Whether a path names a PHP file, by its extension in any case. -/
def Path.isPhp (p : Path) : Bool :=
  p.extension?.any fun e => e.map lowerOctet == Octets.ofString "php"

/-- Whether a glob matches a path as seen from a root. -/
def Glob.watches (g : Glob) (root changed : Path) : Bool :=
  g.matches (changed.relativeTo root).octets

/-- Whether any of the changed files starts a run. A malformed glob never does. -/
def Settings.watches (s : Settings) (root : Path) (changed : List Path) : Bool :=
  match Glob.parse s.watchGlob with
  | .error _ => false
  | .ok g => changed.any (g.watches root)

/-- The wording of a malformed watch glob. -/
def Glob.Fault.watchMessage (f : Glob.Fault) (glob : String) : String :=
  "Invalid watch glob '" ++ glob ++ "': " ++ f.messageFor glob

end DiagnosticRelay
