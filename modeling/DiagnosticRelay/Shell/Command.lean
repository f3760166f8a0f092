/-!
# Shell commands

The form of a command line of a POSIX shell, as far as an analyser's command
line goes: words with their expansions, redirections, pipelines, lists, the
compound commands and functions.

## Main definitions

* `Shell.Part`: what a word is made of.
* `Shell.Command`: a command.
* `Shell.Fault`: why a text is not a command.
-/

namespace DiagnosticRelay.Shell

/-- Where a redirection leads. -/
inductive Direction where
  | output
  | append
  | input
  | duplicate
  /-- The target is the input itself. -/
  | document
  deriving DecidableEq, Repr

/-- What the word behind a parameter is for. -/
inductive Resort where
  /-- It stands in for a parameter that is not set. -/
  | instead
  /-- It becomes the value of a parameter that is not set. -/
  | assign
  /-- It says what is wrong with a parameter that is not set. -/
  | complain
  /-- It stands in for a parameter that is set. -/
  | replace
  deriving DecidableEq, Repr

mutual

/-- A part of a word. The results of quoted parts are not split into fields. -/
inductive Part where
  | text (cs : List Char) (quoted : Bool)
  | parameter (name : List Char) (quoted : Bool)
  /-- A parameter with a word to resort to; `ifEmpty` counts an empty parameter
  as one that is not set. -/
  | resort (name : List Char) (ifEmpty : Bool) (use : Resort) (word : List Part) (quoted : Bool)
  /-- A parameter without what a pattern matches at its start or its end. -/
  | trim (name : List Char) (atEnd longest : Bool) (pattern : List Part) (quoted : Bool)
  /-- The length of a parameter. -/
  | length (name : List Char) (quoted : Bool)
  | substitution (body : List Command) (quoted : Bool)
  | arithmetic (expression : List Part) (quoted : Bool)
  /-- Braces that hold no expansion. -/
  | misshapen

/-- A redirection of a file descriptor. -/
inductive Redirection where
  | mk (descriptor : Nat) (direction : Direction) (target : List Part)

/-- A command. -/
inductive Command where
  | simple (line : Nat) (assignments : List (List Char × List Part)) (words : List (List Part))
      (redirections : List Redirection)
  | pipe (left right : Command)
  | both (left right : Command)
  | either (left right : Command)
  | negated (command : Command)
  | branch (test body alternative : List Command)
  | loop (expected : Bool) (test body : List Command)
  /-- A loop over words, or over the operands when there are none. -/
  | each (name : List Char) (words : Option (List (List Part))) (body : List Command)
  | choose (subject : List Part) (branches : List (List (List Part) × List Command))
  | define (name : List Char) (body : Command)
  | group (body : List Command)
  | subshell (body : List Command)
  | redirected (line : Nat) (command : Command) (redirections : List Redirection)
  /-- A command that nobody waits for. -/
  | aside (command : Command)

end

/-- A word. -/
abbrev Word := List Part

/-- What is wrong with a text. -/
inductive Flaw where
  | unterminatedQuote
  | openBackquote
  | missingBrace
  | missingArithmeticEnd
  | badLoopVariable
  | badDescriptor
  | endOfFile (expected : Option String)
  | unexpected (token : String) (expected : Option String)
  deriving DecidableEq, Repr

/-- A flaw and its line. -/
structure Fault where
  flaw : Flaw
  line : Nat
  deriving DecidableEq, Repr

/-- What was expected, as messages end with it. -/
def expectedText : Option String → String
  | some "word" => " (expecting word)"
  | some token => " (expecting \"" ++ token ++ "\")"
  | none => ""

/-- The wording of a flaw. -/
def Flaw.message : Flaw → String
  | .unterminatedQuote => "Syntax error: Unterminated quoted string"
  | .openBackquote => "Syntax error: EOF in backquote substitution"
  | .missingBrace => "Syntax error: Missing '\x7d'"
  | .missingArithmeticEnd => "Syntax error: Missing '))'"
  | .badLoopVariable => "Syntax error: Bad for loop variable"
  | .badDescriptor => "Syntax error: Bad fd number"
  | .endOfFile expected => "Syntax error: end of file unexpected" ++ expectedText expected
  | .unexpected token expected => "Syntax error: " ++ token ++ " unexpected" ++ expectedText expected

end DiagnosticRelay.Shell
