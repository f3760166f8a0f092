import DiagnosticRelay.Shell.Condition
import DiagnosticRelay.Shell.State

/-!
# Commands a shell knows itself

All of them but those that run other commands.

## Main definitions

* `Shell.State.kill`, `Shell.State.setTrap`: signals.
* `Shell.State.readLine`: a line of input in variables.
* `Shell.builtin?`: a command by its name.
-/

namespace DiagnosticRelay.Shell

/-! ## Signals -/

/-- The names of signals, from the first on. -/
def signalNames : List String := [
  "HUP", "INT", "QUIT", "ILL", "TRAP", "ABRT", "BUS", "FPE", "KILL", "USR1", "SEGV", "USR2",
  "PIPE", "ALRM", "TERM", "STKFLT", "CHLD", "CONT", "STOP", "TSTP", "TTIN", "TTOU", "URG",
  "XCPU", "XFSZ", "VTALRM", "PROF", "WINCH", "IO", "PWR", "SYS"]

/-- The number of a signal by its name or number. -/
def signal? (cs : List Char) : Option Nat :=
  match natural? cs with
  | some n => if n ≤ 64 then some n else none
  | none =>
    if cs = "EXIT".toList then some 0
    else (signalNames.idxOf? (String.ofList (cs.map Char.toUpper))).map (· + 1)

/-- The name of a signal. -/
def signalName (n : Nat) : String :=
  if n = 0 then "EXIT" else (signalNames[n - 1]?).getD (toString n)

/-- Whether a signal passes a process that does not care for it. -/
def isHarmless (signal : Nat) : Bool := [0, 17, 18, 23, 28].contains signal

/-- What a shell says when a program was ended by a signal. -/
def signalText : Nat → String
  | 1 => "Hangup"
  | 3 => "Quit"
  | 4 => "Illegal instruction"
  | 5 => "Trace/breakpoint trap"
  | 6 => "Aborted"
  | 7 => "Bus error"
  | 8 => "Floating point exception"
  | 9 => "Killed"
  | 10 => "User defined signal 1"
  | 11 => "Segmentation fault"
  | 12 => "User defined signal 2"
  | 14 => "Alarm clock"
  | 15 => "Terminated"
  | _ => ""

/-- The status that an operand gives, if it is a number that fits. -/
def statusOf? (cs : List Char) : Option Nat :=
  let body := (cs.dropWhile Char.isWhitespace).reverse.dropWhile Char.isWhitespace |>.reverse
  ((natural? (if body.head? = some '+' then body.tail else body)).filter (· < 2147483648)).map (· % 256)

namespace State

/-- A command that went well. -/
def done (s : State) : State × Flow := ({ s with status := 0 }, .next)

/-- A command that failed with a message. -/
def failure (s : State) (message : String) (status : Nat) : State × Flow :=
  ({ s.complain (s.title ++ message) with status }, .next)

/-- A fault that ends the shell. -/
def fatal (s : State) (message : String) : State × Flow :=
  ({ s.complain (s.title ++ message) with status := 2 }, .exit)

/-- What sending signals does. -/
def kill (s : State) (arguments : List (List Char)) : State × Flow :=
  let send (name : List Char) (targets : List (List Char)) : State × Flow :=
    match signal? name, targets with
    | none, _ => s.failure ("kill: Illegal option -" ++ String.ofList name) 2
    | some _, [] => usage
    | some n, target :: _ =>
      if integer? target = some (Int.ofNat processId) then
        if n = 0 then s.done else ({ s with status := 0 }, .killed n)
      else if (integer? target).isSome then s.failure "kill: No such process" 1
      else s.failure ("kill: Illegal number: " ++ String.ofList target) 2
  match arguments with
  | ['-', 'l'] :: n :: _ =>
    let n := (natural? n).getD 0
    s.leave { out := Octets.ofString (signalName (if n > 128 then n - 128 else n) ++ "\n") } |>.done
  | ['-', 's'] :: name :: rest => send name rest
  | ['-', '-'] :: rest => send "TERM".toList rest
  | ('-' :: name) :: rest => send name rest
  | rest => send "TERM".toList rest
where
  /-- What the command says without a target. -/
  usage : State × Flow :=
    s.failure ("kill: Usage: kill [-s sigspec | -signum | -sigspec] [pid | job]... or\n"
      ++ "kill -l [exitstatus]") 2

/-- Sets or drops commands for signals, or prints them. -/
def setTrap (s : State) (arguments : List (List Char)) : State × Flow :=
  let arguments := if arguments.head? = some ['-', '-'] then arguments.tail else arguments
  let without (s : State) (n : Nat) : State := { s with traps := s.traps.filter (·.1 != n) }
  let onEach (s : State) (names : List (List Char)) (f : State → Nat → State) : State × Flow :=
    names.foldl (fun (s, flow) name =>
      match signal? name with
      | some n => (f s n, flow)
      | none => ({ s.complain ("trap: " ++ String.ofList name ++ ": bad trap") with status := 1 }, flow))
      ({ s with status := 0 }, Flow.next)
  match arguments with
  | [] =>
    let sorted := s.traps.mergeSort fun a b => a.1 ≤ b.1
    let shown := sorted.map fun (n, cs) =>
      "trap -- '" ++ String.ofList cs ++ "' " ++ signalName n ++ "\n"
    (s.leave { out := shown.flatMap Octets.ofString }, .next)
  | [name] => onEach s [name] without
  | action :: names =>
    if action = ['-'] ∨ (natural? action).isSome then
      onEach s (if action = ['-'] then names else arguments) without
    else onEach s names fun s n => { without s n with traps := (n, action) :: (without s n).traps }

/-! ## Variables -/

/-- Sets variables from operands such as `name=value` and does something to each
name. -/
def assignAll (s : State) (command : String) (f : State → List Char → State)
    (arguments : List (List Char)) : State × Flow :=
  arguments.foldl (fun (s, flow) cs =>
    if flow != .next then (s, flow)
    else
      let name := Source.nameAt cs
      match cs.drop name.length with
      | [] =>
        if name.isEmpty then s.fatal (command ++ ": " ++ String.ofList cs ++ ": bad variable name")
        else (f s name, .next)
      | '=' :: value =>
        if name.isEmpty then s.fatal (command ++ ": " ++ String.ofList cs ++ ": bad variable name")
        else if s.readOnly.contains name then
          s.fatal (command ++ ": " ++ String.ofList name ++ ": is read only")
        else (f (s.assign name value) name, .next)
      | _ => s.fatal (command ++ ": " ++ String.ofList (cs.takeWhile (· != '='))
          ++ ": bad variable name"))
    ({ s with status := 0 }, .next)

/-- A text between quotes, as the shell prints values. -/
def quoted (cs : List Char) : String :=
  "'" ++ String.ofList (cs.flatMap fun c => if c = '\'' then "'\"'\"'".toList else [c]) ++ "'"

/-- Prints variables with what makes them again. -/
def showVariables (s : State) (start : String) (names : List (List Char)) : State × Flow :=
  let sorted := names.mergeSort fun a b => !(b < a)
  let shown := sorted.map fun name =>
    start ++ String.ofList name ++ (match s.valueOf? name with
      | some value => "=" ++ quoted value
      | none => "") ++ "\n"
  (s.leave { out := shown.flatMap Octets.ofString }, .next)

/-- Makes variables those of the function that runs. -/
def makeLocal (s : State) (arguments : List (List Char)) : State × Flow :=
  if s.calls = 0 then s.fatal "local: not in a function"
  else
    let (s, flow) := s.done
    arguments.foldl (fun (s, flow) cs =>
      let name := Source.nameAt cs
      let s := { s with outer := (name, s.valueOf? name) :: s.outer }
      match cs.drop name.length with
      | '=' :: value => (s.assign name value, flow)
      | _ => (s, flow)) (s, flow)

/-- Drops variables or functions. -/
def unset (s : State) (arguments : List (List Char)) : State × Flow :=
  match arguments with
  | ['-', 'f'] :: names =>
    { s with functions := s.functions.filter fun f => !names.contains f.1 } |>.done
  | _ =>
    let names := if arguments.head? = some ['-', 'v'] then arguments.tail else arguments
    match names.find? s.readOnly.contains with
    | some name => s.fatal ("unset: " ++ String.ofList name ++ ": is read only")
    | none => (names.foldl State.unassign s).done

/-! ## Input -/

/-- The letters of a line of input, and what follows it; nothing follows when the
input ends first. Unless the line is taken as it is, a backslash keeps the next
character as it is and joins lines. -/
def inputLine (raw : Bool) : List Char → List Letter × Option (List Char)
  | [] => ([], none)
  | '\n' :: rest => ([], some rest)
  | '\\' :: c :: rest =>
    if raw then
      if c = '\n' then ([⟨'\\', false⟩], some rest)
      else
        let r := inputLine raw rest
        (⟨'\\', false⟩ :: ⟨c, false⟩ :: r.1, r.2)
    else if c = '\n' then inputLine raw rest
    else
      let r := inputLine raw rest
      (⟨c, true⟩ :: r.1, r.2)
  | c :: rest =>
    let r := inputLine raw rest
    (⟨c, false⟩ :: r.1, r.2)

/-- Whether a letter separates fields. -/
def isSeparator (separators : List Char) (a : Letter) : Bool :=
  !a.quoted && separators.contains a.char

/-- Shares out the letters of a line; the last name gets all that is left. -/
def shareOut (separators : List Char) : List (List Char) → List Letter → List (List Char × List Char)
  | [], _ => []
  | name :: names, letters =>
    let isBlank (a : Letter) : Bool := isSeparator separators a && isFieldBlank a.char
    let letters := letters.dropWhile isBlank
    if names.isEmpty then
      [(name, charsOf (letters.reverse.dropWhile isBlank).reverse)]
    else
      let field := letters.takeWhile fun a => !isSeparator separators a
      let behind := (letters.drop field.length).dropWhile isBlank
      let behind := match behind with
        | a :: rest => if isSeparator separators a then rest else behind
        | [] => []
      (name, charsOf field) :: shareOut separators names behind

/-- Reads a line of the input into variables. -/
def readLine (s : State) (arguments : List (List Char)) : State × Flow :=
  let options := arguments.takeWhile fun cs => cs.head? == some '-' && cs.length > 1
  let names := arguments.drop options.length
  if names.isEmpty then s.failure "read: arg count" 2
  else
    let (letters, rest) := inputLine (options.flatten.contains 'r') s.input.decodeLossy
    let s := (shareOut s.separators names letters).foldl (fun s v => s.assign v.1 v.2) s
    ({ s with input := octetsOf (rest.getD []), status := if rest.isNone then 1 else 0 }, .next)

/-! ## Directories -/

/-- The text of a path of names. -/
def pathText (names : FileNames) : List Char := (FileTree.pathOf names).display.toList

/-- Changes the directory. -/
def changeDirectory (s : State) (arguments : List (List Char)) : State × Flow :=
  let operands := arguments.filter fun cs => cs != ['-', 'P'] && cs != ['-', 'L'] && cs != ['-', '-']
  let back := operands.head? == some ['-']
  let target := if back then (s.valueOf? "OLDPWD".toList).getD []
    else (operands.head?.orElse fun _ => s.valueOf? "HOME".toList).getD []
  if target.isEmpty then s.done
  else match s.files.directory s.here (pathOf target) with
    | .ok names =>
      let t := ({ s with here := names }.assign "OLDPWD".toList (pathText s.here)).assign
        "PWD".toList (pathText names)
      let t := (t.expose "OLDPWD".toList).expose "PWD".toList
      (if back then t.leave { out := octetsOf (pathText names ++ ['\n']) } else t).done
    | .error _ => s.failure ("cd: can't cd to " ++ String.ofList target) 2

end State

/-! ## Habits -/

/-- The habits with one of them changed, by its letter. -/
def Habits.change? (h : Habits) (on : Bool) : Char → Option Habits
  | 'e' => some { h with stopsOnFailure := on }
  | 'u' => some { h with needsVariables := on }
  | 'f' => some { h with keepsPatterns := on }
  | 'x' => some { h with showsCommands := on }
  | 'a' | 'b' | 'C' | 'h' | 'i' | 'I' | 'm' | 'n' | 's' | 'v' | 'V' | 'E' => some h
  | _ => none

/-- The letter of a habit by its long name. -/
def habitLetter? (name : List Char) : Option Char :=
  match String.ofList name with
  | "errexit" => some 'e'
  | "nounset" => some 'u'
  | "noglob" => some 'f'
  | "xtrace" => some 'x'
  | "verbose" => some 'v'
  | "allexport" => some 'a'
  | "noclobber" => some 'C'
  | _ => none

/-- Takes options off operands. The operands are absent when options are all
there is; an option that means nothing stops it. -/
def Habits.take (h : Habits) : List (List Char) →
    Except (List Char) (Habits × Option (List (List Char)))
  | [] => .ok (h, none)
  | ['-', '-'] :: rest => .ok (h, some rest)
  | ['-'] :: rest => .ok (h, if rest.isEmpty then none else some rest)
  | [sign, 'o'] :: name :: rest =>
    if sign = '-' ∨ sign = '+' then
      match (habitLetter? name).bind (h.change? (sign = '-')) with
      | some h => h.take rest
      | none => .error ([sign, 'o', ' '] ++ name)
    else .ok (h, some ([sign, 'o'] :: name :: rest))
  | (sign :: letters) :: rest =>
    if sign = '-' ∨ sign = '+' then
      match letters.find? fun c => (h.change? true c).isNone with
      | some c => .error [sign, c]
      | none => (letters.foldl (fun h c => (h.change? (sign = '-') c).getD h) h).take rest
    else .ok (h, some ((sign :: letters) :: rest))
  | rest => .ok (h, some rest)

namespace State

/-- Changes the habits and the operands, or prints the variables. -/
def set (s : State) (arguments : List (List Char)) : State × Flow :=
  if arguments.isEmpty then s.showVariables "" (s.bindings.map (·.1))
  else match s.habits.take arguments with
    | .error option => s.fatal ("set: Illegal option " ++ String.ofList option)
    | .ok (habits, operands) => { s with habits, operands := operands.getD s.operands } |>.done

/-! ## Control -/

/-- Ends the shell, or leaves what runs, with a status. -/
def endWith (s : State) (name : String) (flow : Flow) (arguments : List (List Char)) :
    State × Flow :=
  match arguments with
  | [] => (s, flow)
  | a :: _ =>
    match statusOf? a with
    | some status => ({ s with status }, flow)
    | none => s.fatal (name ++ ": Illegal number: " ++ String.ofList a)

/-- Leaves loops or starts them over. -/
def jump (s : State) (name : String) (flow : Nat → Flow) (arguments : List (List Char)) :
    State × Flow :=
  match arguments.head?, arguments.head?.bind natural? with
  | some a, none => s.fatal (name ++ ": Illegal number: " ++ String.ofList a)
  | some a, some 0 => s.fatal (name ++ ": Illegal number: " ++ String.ofList a)
  | _, n =>
    let levels := min (n.getD 1) s.loops
    ({ s with status := 0 }, if levels = 0 then .next else flow levels)

/-- Drops operands. -/
def shift (s : State) (arguments : List (List Char)) : State × Flow :=
  match arguments.head?, (arguments.head?.map natural?).getD (some 1) with
  | some a, none => s.fatal ("shift: Illegal number: " ++ String.ofList a)
  | _, n =>
    let n := n.getD 1
    if s.operands.length < n then s.fatal "shift: can't shift that many"
    else { s with operands := s.operands.drop n } |>.done

/-- Leaves the condition of `test`. -/
def condition (s : State) (name : String) (arguments : List (List Char)) : State × Flow :=
  match Condition.holds s.files s.here arguments with
  | .ok b => ({ s with status := if b then 0 else 1 }, .next)
  | .error flaw => s.failure (name ++ ": " ++ flaw.message) 2

end State

/-! ## Commands by name -/

/-- The commands a shell has to know itself; a fault in one ends the shell. -/
def specialNames : List String := [
  ".", ":", "break", "continue", "eval", "exec", "exit", "export", "readonly", "return", "set",
  "shift", "times", "trap", "unset"]

/-- The other commands a shell knows itself. -/
def ordinaryNames : List String := [
  "[", "alias", "cd", "command", "echo", "false", "getopts", "hash", "jobs", "kill", "local",
  "printf", "pwd", "read", "test", "true", "type", "ulimit", "umask", "unalias", "wait"]

/-- The words that shape commands. -/
def keywords : List String := [
  "!", "case", "do", "done", "elif", "else", "esac", "fi", "for", "if", "in", "then", "until",
  "while", "\x7b", "\x7d"]

/-- A command a shell knows itself, but for those that run others. -/
def builtin? (s : State) (name : String) (arguments : List (List Char)) :
    Option (State × Flow) :=
  let asked := arguments.isEmpty || arguments == [['-', 'p']]
  match name with
  | ":" | "true" | "wait" | "hash" | "jobs" | "alias" | "unalias" | "times" => some s.done
  | "false" => some ({ s with status := 1 }, .next)
  | "echo" => some (s.leave (echo arguments), .next)
  | "printf" => some (s.leave (printf (s.title) arguments), .next)
  | "pwd" => some (s.leave { out := (FileTree.pathOf s.here).octets ++ [0x0A] }, .next)
  | "umask" => some (s.leave { out := if arguments.isEmpty then octetsOf "0022\n".toList else [] }, .next)
  | "ulimit" => some (s.leave { out := if arguments.isEmpty then octetsOf "unlimited\n".toList else [] },
      .next)
  | "export" => some (if asked then s.showVariables "export " s.exported
      else s.assignAll name State.expose arguments)
  | "readonly" => some (if asked then s.showVariables "readonly " s.readOnly
      else s.assignAll name (fun s v => { s with readOnly := v :: s.readOnly }) arguments)
  | "local" => some (s.makeLocal arguments)
  | "unset" => some (s.unset arguments)
  | "cd" => some (s.changeDirectory arguments)
  | "exit" => some (s.endWith name .exit arguments)
  | "return" => some (s.endWith name .back arguments)
  | "break" => some (s.jump name .leave arguments)
  | "continue" => some (s.jump name .again arguments)
  | "kill" => some (s.kill arguments)
  | "trap" => some (s.setTrap arguments)
  | "set" => some (s.set arguments)
  | "shift" => some (s.shift arguments)
  | "read" => some (s.readLine arguments)
  | "test" => some (s.condition name arguments)
  | "[" => some (
      if arguments.getLast? = some [']'] then s.condition name arguments.dropLast
      else s.failure "[: missing ]" 2)
  | _ => none

end DiagnosticRelay.Shell
