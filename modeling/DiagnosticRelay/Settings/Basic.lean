/-!
# Settings

## Main definitions

* `Settings`: how the analyser is run and its report is read.
-/

namespace DiagnosticRelay

/-- How the analyser is run and its report is read. The defaults are those of a
workspace that says nothing. -/
structure Settings where
  /-- The interpreter before the command; may be empty. -/
  phpCommand : String := "php"
  /-- The analyser with its output format. -/
  command : String := "vendor/bin/phpstan analyse --error-format=json --no-progress"
  /-- The files whose change starts a run of the whole project. -/
  watchGlob : String := "**/\x7bphpstan.neon,phpstan.neon.dist,phpstan.dist.neon\x7d"
  /-- What the analyser reports instead of the workspace root; empty for nothing. -/
  dockerVolumePath : String := ""
  deriving DecidableEq, Repr

namespace Settings

/-- The section under which editors and files keep the settings. -/
def sectionName : String := "phpstan"

end Settings

end DiagnosticRelay
