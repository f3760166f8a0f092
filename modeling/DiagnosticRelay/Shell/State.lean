import DiagnosticRelay.Shell.Arithmetic
import DiagnosticRelay.Shell.Pattern
import DiagnosticRelay.Shell.Reading
import DiagnosticRelay.Shell.Utility

/-!
# The state of a shell

## Main definitions

* `Shell.State`: variables, operands, files, input and what was printed.
* `Shell.Flow`: how commands go on.
* `Shell.State.writeTo`: printing to a descriptor.
* `Shell.fields`: the fields of an expanded word.
-/

namespace DiagnosticRelay.Shell

/-- Where a descriptor leads. -/
inductive Sink where
  | out
  | err
  | file (names : FileNames)
  | nowhere
  deriving DecidableEq, Repr

/-- How commands go on. -/
inductive Flow where
  | next
  /-- The shell ends with its status. -/
  | exit
  /-- The process is ended by a signal. -/
  | killed (signal : Nat)
  /-- The loops around are left, the innermost ones first. -/
  | leave (levels : Nat)
  /-- The loops around are left but for the last, which starts over. -/
  | again (levels : Nat)
  /-- The function or file is left. -/
  | back
  deriving DecidableEq, Repr

/-- The habits of a shell. -/
structure Habits where
  /-- A command that fails ends the shell. -/
  stopsOnFailure : Bool := false
  /-- A variable that is not set is a fault. -/
  needsVariables : Bool := false
  /-- Words are no patterns for names of files. -/
  keepsPatterns : Bool := false
  /-- Commands are printed before they run. -/
  showsCommands : Bool := false

/-- The state of a shell. Printed chunks stand last first. -/
structure State where
  files : FileTree
  here : FileNames
  /-- The name the shell was called by. -/
  name : List Char
  operands : List (List Char) := []
  bindings : List (List Char × List Char) := []
  /-- The variables that programs get to see. -/
  exported : List (List Char) := []
  readOnly : List (List Char) := []
  functions : List (List Char × Command) := []
  /-- Variables of the function that runs, with their values outside it. -/
  outer : List (List Char × Option (List Char)) := []
  /-- Commands for signals; zero stands for the end of the shell. -/
  traps : List (Nat × List Char) := []
  habits : Habits := {}
  /-- The number of loops around. -/
  loops : Nat := 0
  /-- The number of functions around. -/
  calls : Nat := 0
  /-- A failure decides about something, so it ends nothing. -/
  isTested : Bool := false
  /-- How an expansion ended the shell, if it did. -/
  ending : Option Flow := none
  /-- What messages name before their text. -/
  within : String := ""
  /-- The line of the command that runs. -/
  line : Nat := 1
  status : Nat := 0
  /-- The status of the latest substitution in a command. -/
  substitutionStatus : Nat := 0
  input : Octets := []
  out : List Octets := []
  err : List Octets := []
  outTo : Sink := .out
  errTo : Sink := .err
  /-- Where the descriptors from three on lead. -/
  others : List (Nat × Sink) := []

namespace State

/-- The number of the process. -/
def processId : Nat := 4242

/-! ## Printing -/

/-- Prints to a sink. -/
def writeTo (s : State) (sink : Sink) (octets : Octets) : State :=
  if octets.isEmpty then s
  else match sink with
    | .out => { s with out := octets :: s.out }
    | .err => { s with err := octets :: s.err }
    | .nowhere => s
    | .file names =>
      let before := match s.files.entry? names with
        | some (.file content) => content
        | _ => []
      { s with files := s.files.put names (.file (before ++ octets)) }

/-- Takes over what a program left. -/
def leave (s : State) (e : Effect) : State :=
  let s := { s with files := e.files.getD s.files }
  { (s.writeTo s.outTo e.out).writeTo s.errTo e.err with status := e.status }

/-- Prints a message to the error output. -/
def complain (s : State) (message : String) : State :=
  s.writeTo s.errTo (Octets.ofString (message ++ "\n"))

/-- The start of the messages of a shell. -/
def title (s : State) : String := String.ofList s.name ++ ": " ++ toString s.line ++ ": "

/-- The start of the messages of a shell about what it reads. -/
def heading (s : State) : String := s.title ++ s.within

/-- The state after a fault of an expansion, which ends the shell. -/
def broken (s : State) (message : String) : State :=
  { s.complain (s.heading ++ message) with status := 2, ending := some .exit }

/-- The output so far. -/
def printed (s : State) : Octets := s.out.reverse.flatten

/-- The error output so far. -/
def complaints (s : State) : Octets := s.err.reverse.flatten

/-- Where a descriptor leads. -/
def sink? (s : State) (n : Nat) : Option Sink :=
  if n = 1 then some s.outTo else if n = 2 then some s.errTo
  else (s.others.find? (·.1 == n)).map (·.2)

/-- The state with a descriptor that leads elsewhere. -/
def withSink (s : State) (n : Nat) (sink : Sink) : State :=
  if n = 1 then { s with outTo := sink } else if n = 2 then { s with errTo := sink }
  else { s with others := (n, sink) :: s.others.filter (·.1 != n) }

/-- The state with a descriptor that leads nowhere any more. -/
def withoutSink (s : State) (n : Nat) : State :=
  if n ≤ 2 then s.withSink n .nowhere else { s with others := s.others.filter (·.1 != n) }

/-- The state with the descriptors of another one. -/
def withSinksOf (s t : State) : State :=
  { s with outTo := t.outTo, errTo := t.errTo, others := t.others }

/-- The state with some input left. -/
def withInput (s : State) (input : Octets) : State := { s with input }

/-! ## Variables -/

/-- The value of a variable. -/
def valueOf? (s : State) (name : List Char) : Option (List Char) :=
  (s.bindings.find? (·.1 == name)).map (·.2)

/-- The state with a variable set. -/
def assign (s : State) (name value : List Char) : State :=
  { s with bindings := (name, value) :: s.bindings.filter (·.1 != name) }

/-- The state without a variable. -/
def unassign (s : State) (name : List Char) : State :=
  { s with
    bindings := s.bindings.filter (·.1 != name), exported := s.exported.filter (· != name) }

/-- The state with a variable as it was. -/
def restore (s : State) (name : List Char) : Option (List Char) → State
  | some value => s.assign name value
  | none => s.unassign name

/-- The state with a variable that programs get to see. -/
def expose (s : State) (name : List Char) : State :=
  { s with exported := name :: s.exported.filter (· != name) }

/-- The variables that programs get to see, with their values. -/
def environment (s : State) : List (List Char × List Char) :=
  s.bindings.filter fun v => s.exported.contains v.1

/-- The letters of the habits. -/
def habitLetters (s : State) : List Char :=
  (if s.habits.stopsOnFailure then ['e'] else [])
    ++ (if s.habits.keepsPatterns then ['f'] else [])
    ++ (if s.habits.showsCommands then ['x'] else [])
    ++ (if s.habits.needsVariables then ['u'] else [])

/-- The value of a parameter. -/
def parameter? (s : State) (name : List Char) : Option (List Char) :=
  match name with
  | ['#'] => some (toString s.operands.length).toList
  | ['?'] => some (toString s.status).toList
  | ['$'] => some (toString processId).toList
  | ['-'] => some s.habitLetters
  | ['!'] => none
  | ['@'] | ['*'] => if s.operands.isEmpty then none else some (List.intercalate [' '] s.operands)
  | ['0'] => some s.name
  | cs =>
    match natural? cs with
    | some n => s.operands[n - 1]?
    | none => s.valueOf? cs

/-- The value of a variable as a number. -/
def numberOf (s : State) (name : List Char) : Except Arithmetic.Flaw Int64 :=
  match s.valueOf? name with
  | none => .ok 0
  | some cs =>
    match Arithmetic.signed? cs with
    | some n => .ok n
    | none => .error (.illegalNumber cs)

/-- The command of a function. -/
def function? (s : State) (name : List Char) : Option Command :=
  (s.functions.find? (·.1 == name)).map (·.2)

/-- The command for a signal. -/
def trap? (s : State) (signal : Nat) : Option (List Char) :=
  (s.traps.find? (·.1 == signal)).map (·.2)

/-! ## Shells inside -/

/-- The state of a shell inside. It has no commands for signals but those that
ignore them. -/
def inside (s : State) : State := { s with traps := s.traps.filter (·.2.isEmpty), loops := 0 }

/-- The state of a shell inside, whose output is kept apart. -/
def apart (s : State) : State := { s.inside with out := [], outTo := .out }

/-- The state after a shell inside: what it changed outside itself stays. -/
def after (s inside : State) : State :=
  { s with
    files := inside.files, err := inside.err, status := inside.status, input := inside.input }

end State

/-! ## Fields -/

/-- A piece of an expanded word. -/
inductive Piece where
  /-- A character that belongs to its field. -/
  | keep (a : Letter)
  /-- A character that may separate fields. -/
  | split (c : Char)
  /-- Quotes, which make a field even of nothing. -/
  | quotes
  /-- The end of a field. -/
  | cut
  deriving DecidableEq

/-- The pieces of a text in a word. -/
def piecesOfText (quoted : Bool) (cs : List Char) : List Piece :=
  (if quoted then [.quotes] else []) ++ cs.map fun c => .keep ⟨c, quoted⟩

/-- The pieces of a result. -/
def piecesOf (quoted : Bool) (cs : List Char) : List Piece :=
  if quoted then piecesOfText true cs else cs.map .split

/-- Whether a character is a blank between fields. -/
def isFieldBlank (c : Char) : Bool := c == ' ' || c == '\t' || c == '\n'

/-- Collects the fields of pieces, given the characters that separate them. The
field begun comes with its last letter first. -/
def fields (separators : List Char) : Option (List Letter) → List Piece → List (List Letter)
  | none, [] => []
  | some field, [] => [field.reverse]
  | field, .keep a :: rest => fields separators (some (a :: field.getD [])) rest
  | field, .quotes :: rest => fields separators (some (field.getD [])) rest
  | field, .cut :: rest => (field.map List.reverse).toList ++ fields separators none rest
  | field, .split c :: rest =>
    if separators.contains c then
      if isFieldBlank c then (field.map List.reverse).toList ++ fields separators none rest
      else (field.getD []).reverse :: fields separators none rest
    else fields separators (some (⟨c, false⟩ :: field.getD [])) rest

/-- The letters of pieces. -/
def lettersOf (pieces : List Piece) : List Letter :=
  pieces.filterMap fun
    | .keep a => some a
    | .split c => some ⟨c, false⟩
    | .quotes => none
    | .cut => some ⟨' ', true⟩

/-- The characters of pieces. -/
def textOf (pieces : List Piece) : List Char := charsOf (lettersOf pieces)

/-- The characters that separate fields. -/
def State.separators (s : State) : List Char :=
  (s.valueOf? "IFS".toList).getD [' ', '\t', '\n']

/-! ## Names of files -/

/-- The parts of a word between its slashes. -/
def partsOf (letters : List Letter) : List (List Letter) :=
  letters.foldr (fun a parts =>
    if a.char = '/' then [] :: parts
    else match parts with
      | [] => [[a]]
      | part :: parts => (a :: part) :: parts) [[]]

/-- The paths below a directory that parts of a pattern stand for, each with
what leads to it. -/
def pathsFor (files : FileTree) : FileNames → List Char → List (List Letter) → List (List Char)
  | _, _, [] => []
  | directory, lead, part :: parts =>
    let p := Pattern.ofLetters part
    let enter (text : List Char) : List (List Char) :=
      let names := if text.isEmpty then directory else directory ++ [octetsOf text]
      if parts.isEmpty then [lead ++ text]
      else if files.entry? names != some .directory then []
      else pathsFor files names (lead ++ text ++ ['/']) parts
    if p.isPlain then
      let text := charsOf part
      if text.isEmpty ∨ text = ['.'] then
        if parts.isEmpty then [lead ++ text] else pathsFor files directory (lead ++ text ++ ['/']) parts
      else if text = ['.', '.'] then
        if parts.isEmpty then [lead ++ text]
        else pathsFor files directory.dropLast (lead ++ text ++ ['/']) parts
      else if (files.entry? (directory ++ [octetsOf text])).isSome then enter text else []
    else
      let names := (namesIn files directory).map Octets.decodeLossy
      (names.filter fun name =>
        p.matches name && (name.head? != some '.' || (charsOf part).head? == some '.')).flatMap enter

/-- The fields that a field stands for: the names of files, if it is a pattern
for any. -/
def State.pathnames (s : State) (field : List Letter) : List (List Char) :=
  if s.habits.keepsPatterns || (Pattern.ofLetters field).isPlain then [charsOf field]
  else
    let isAbsolute := (charsOf field).head? == some '/'
    match pathsFor s.files (if isAbsolute then [] else s.here) [] (partsOf field) with
    | [] => [charsOf field]
    | paths => paths

end DiagnosticRelay.Shell
