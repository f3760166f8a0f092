import DiagnosticRelay.Path.Basic
import DiagnosticRelay.Settings.Basic
import DiagnosticRelay.Text.Blank

/-!
# The command line of a run

The interpreter, the command and, for a single file, its path as seen from the
workspace root, quoted for the shell.

## Main definitions

* `Shell.quoteWord`: a text as one word of a shell.
* `Settings.commandLine`: the command line of a run.
-/

namespace DiagnosticRelay

namespace Shell

/-- Characters that mean themselves wherever they stand in a word. -/
def isInert (c : Char) : Bool := c.isAlphanum || "/._+:@%=,-".toList.contains c

/-- A character between single quotes; a quote leaves them and comes back. -/
def quoteWordChar (c : Char) : List Char :=
  if c = '\'' then ['\'', '\\', '\'', '\''] else [c]

/-- A text as one word of a shell. -/
def quoteWord (text : List Char) : List Char :=
  if !text.isEmpty && text.all isInert then text
  else '\'' :: text.flatMap quoteWordChar ++ ['\'']

end Shell

namespace Settings

/-- The words of a run of the whole project, those that are blank left out. -/
def baseWords (s : Settings) : List String :=
  [Text.trim s.phpCommand, Text.trim s.command].filter fun word => !word.isEmpty

/-- The path of a file as the analyser gets it. -/
def operand (root target : Path) : String := (target.relativeTo root).display

/-- The word of a file to analyse. -/
def operandWord (root target : Path) : String :=
  String.ofList (Shell.quoteWord (operand root target).toList)

/-- The command line of a run of the whole project or of a single file. -/
def commandLine (s : Settings) (root : Path) (target : Option Path) : String :=
  " ".intercalate (s.baseWords ++ (target.map (operandWord root)).toList)

end Settings

end DiagnosticRelay
