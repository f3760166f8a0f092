import DiagnosticRelay.Run.Outcome
import DiagnosticRelay.Shell.Builtin

/-!
# Running shell commands

A shell expands the words of a command, redirects its descriptors and runs it:
a program of its own, a utility, a function or another shell.

## Main definitions

* `Shell.runText`: the text of a shell.
* `Shell.execute`: a command line, as a process leaves it.
-/

namespace DiagnosticRelay.Shell

/-! ## Programs and files -/

/-- What starting a program by its path meets. -/
inductive Found where
  | program (name : String)
  | denied
  | missing
  deriving DecidableEq

/-- The program of a path. -/
def findProgram (files : FileTree) (here : FileNames) (name : List Char) : Found :=
  match files.follow here (pathOf name) with
  | .error _ => .missing
  | .ok names =>
    match files.entry? names with
    | some (.program p) => .program p
    | some _ => .denied
    | none => .missing

/-- The paths that a name is looked up by: in the directories that the
environment tells, unless it has a slash. -/
def State.programPaths (s : State) (name : List Char) : List (List Char) :=
  if name.contains '/' then [name]
  else
    let directories := ((s.valueOf? "PATH".toList).getD "/usr/bin".toList).splitOn ':'
    directories.map fun directory => (if directory.isEmpty then ['.'] else directory) ++ ['/'] ++ name

/-- The program that a word calls, and its path. -/
def State.calledProgram (s : State) (called : List Char) : Found × List Char :=
  let found := (s.programPaths called).map fun path => (findProgram s.files s.here path, path)
  match found.find? fun r => r.1 != .missing && r.1 != .denied with
  | some r => r
  | none => (found.find? (·.1 == .denied)).getD (.missing, called)

/-- The descriptor that a path of the system stands for. -/
def systemDescriptor? (target : List Char) : Option Nat :=
  match String.ofList target with
  | "/dev/stdout" | "/dev/fd/1" => some 1
  | "/dev/stderr" | "/dev/fd/2" => some 2
  | _ => none

/-- Opens the target of a redirection for output. -/
def openOutput (s : State) (append : Bool) (target : List Char) : Except String (Sink × FileTree) :=
  if target = "/dev/null".toList then .ok (.nowhere, s.files)
  else if target.isEmpty then .error "Directory nonexistent"
  else match (systemDescriptor? target).bind s.sink? with
    | some sink => .ok (sink, s.files)
    | none =>
      let p := pathOf target
      let parts := Path.split p.octets
      match s.files.followParts (if p.isAbsolute then [] else s.here) parts.dropLast,
        parts.getLast? with
      | .ok names, some last =>
        let names := if Path.isSilent last then names else names ++ [last]
        match s.files.entry? names with
        | some (.file _) =>
          .ok (.file names, if append then s.files else s.files.put names (.file []))
        | none =>
          if s.files.entry? names.dropLast = some .directory then
            .ok (.file names, s.files.put names (.file []))
          else .error "Directory nonexistent"
        | some .directory => .error "Is a directory"
        | some (.program _) => .error "Permission denied"
      | _, _ => .error "Directory nonexistent"

/-- Redirects a descriptor. -/
def redirect (s : State) (n : Nat) (direction : Direction) (target : List Char) :
    Except State State :=
  let fail (message : String) : Except State State :=
    .error { s.complain (s.heading ++ message) with status := 2 }
  match direction with
  | .document => .ok { s with input := octetsOf target }
  | .input =>
    if target = "/dev/stdin".toList then .ok s
    else match s.files.read s.here (pathOf target) with
      | .ok content => .ok { s with input := content }
      | .error .isDirectory => .ok { s with input := [] }
      | .error _ => fail ("cannot open " ++ String.ofList target ++ ": No such file")
  | .duplicate =>
    if target = ['-'] then .ok (s.withoutSink n)
    else if target = ['0'] then .ok s
    else match (natural? target).bind s.sink? with
      | some sink => .ok (s.withSink n sink)
      | none => fail (String.ofList target ++ ": Bad file descriptor")
  | .output | .append =>
    match openOutput s (direction == .append) target with
    | .ok (sink, files) => .ok ({ s with files }.withSink n sink)
    | .error reason => fail ("cannot create " ++ String.ofList target ++ ": " ++ reason)

/-! ## Results -/

/-- The output of a substitution without the line ends behind it. -/
def substituted (out : Octets) : List Char :=
  Octets.decodeLossy ((out.filter (· != 0)).reverse.dropWhile (· == 0x0A)).reverse

/-- The pieces of a word that stands in for a parameter. -/
def piecesInstead (quoted : Bool) (pieces : List Piece) : List Piece :=
  pieces.map fun
    | .keep a => if quoted || a.quoted then .keep a else .split a.char
    | piece => piece

/-- The pieces of a parameter. The operands are fields of their own when they
are quoted. -/
def State.piecesOfParameter (s : State) (name : List Char) (quoted : Bool) : State × List Piece :=
  match name, quoted with
  | ['@'], true => (s, List.intercalate [.cut] (s.operands.map (piecesOf true)))
  | name, quoted =>
    match s.parameter? name with
    | some cs => (s, piecesOf quoted cs)
    | none =>
      if s.habits.needsVariables && !(["@", "*", "!"].contains (String.ofList name)) then
        (s.broken (String.ofList name ++ ": parameter not set"), [])
      else (s, piecesOf quoted [])

/-- A word with the home directory in place of a tilde at its start. -/
def State.fromHome (s : State) (word : Word) : Word :=
  match word, s.valueOf? "HOME".toList with
  | .text ('~' :: rest) false :: parts, some home =>
    if (rest.isEmpty && parts.isEmpty) || rest.head? == some '/' then
      .text home true :: .text rest false :: parts
    else word
  | _, _ => word

/-- The value of an expression in words. -/
def State.evaluate (s : State) (cs : List Char) : State × List Char :=
  match do (← Arithmetic.read cs).value s.numberOf [] with
  | .ok (n, made) =>
    (made.reverse.foldl (fun s (name, n) => s.assign name (toString n.toInt).toList) s,
      (toString n.toInt).toList)
  | .error flaw => (s.broken (flaw.message (String.ofList cs)), [])

/-- Sets a variable, unless it must stay as it is. -/
def State.assignChecked (s : State) (name value : List Char) : State :=
  if s.readOnly.contains name then s.broken (String.ofList name ++ ": is read only")
  else s.assign name value

/-- What `type` and `command` tell of a name. -/
def State.describe (s : State) (brief : Bool) (name : List Char) : Effect :=
  let word := String.ofList name
  let tell (long short : String) : Effect :=
    { out := Octets.ofString ((if brief then short else word ++ " is " ++ long) ++ "\n") }
  if keywords.contains word then tell "a shell keyword" word
  else if (s.function? name).isSome then tell "a shell function" word
  else if specialNames.contains word then tell "a special shell builtin" word
  else if ordinaryNames.contains word then tell "a shell builtin" word
  else match s.calledProgram name with
    | (.program _, path) => tell (String.ofList path) (String.ofList path)
    | _ => { status := 127, out := if brief then [] else Octets.ofString (word ++ ": not found\n") }

/-- How a shell is to be called: its habits, whether the first operand is its
text, whether it reads its input, and its operands. -/
structure ShellCall where
  habits : Habits := {}
  hasText : Bool := false
  readsInput : Bool := false
  operands : List (List Char) := []

/-- Reads the operands of a shell. An option that means nothing stops it. -/
def ShellCall.read (c : ShellCall) : List (List Char) → Except (List Char) ShellCall
  | [] => .ok { c with operands := [] }
  | ['-', '-'] :: rest | ['-'] :: rest => .ok { c with operands := rest }
  | [sign, 'o'] :: name :: rest =>
    if sign = '-' ∨ sign = '+' then
      match (habitLetter? name).bind (c.habits.change? (sign = '-')) with
      | some habits => ShellCall.read { c with habits } rest
      | none => .error ([sign, 'o', ' '] ++ name)
    else .ok { c with operands := [sign, 'o'] :: name :: rest }
  | (sign :: letters) :: rest =>
    if sign = '-' ∨ sign = '+' then
      let known := letters.filter (· != 'c')
      match known.find? fun l => (c.habits.change? true l).isNone with
      | some l => .error [sign, l]
      | none => ShellCall.read { c with
          habits := known.foldl (fun h l => (h.change? (sign = '-') l).getD h) c.habits
          hasText := c.hasText || letters.contains 'c'
          readsInput := c.readsInput || letters.contains 's' } rest
    else .ok { c with operands := (sign :: letters) :: rest }
  | rest => .ok { c with operands := rest }

/-! ## Running -/

mutual

/-- Expands the parts of a word. -/
def expand (s : State) : Nat → List Part → State × List Piece
  | 0, _ => (s, [])
  | _ + 1, [] => (s, [])
  | fuel + 1, part :: rest =>
    let (s, pieces) := expandPart s fuel part
    let (s, more) := expand s fuel rest
    (s, pieces ++ more)
termination_by structural fuel => fuel

/-- Expands a part of a word. -/
def expandPart (s : State) : Nat → Part → State × List Piece
  | 0, _ => (s, [])
  | fuel + 1, part =>
    match part with
    | .text cs quoted => (s, piecesOfText quoted cs)
    | .parameter name quoted => s.piecesOfParameter name quoted
    | .resort name ifEmpty use word quoted =>
      let value := (s.parameter? name).filter fun cs => !(ifEmpty && cs.isEmpty)
      match value, use with
      | some _, .replace | none, .instead =>
        let (s, pieces) := expand s fuel word
        (s, piecesInstead quoted pieces)
      | none, .replace => (s, piecesOf quoted [])
      | some _, _ => s.piecesOfParameter name quoted
      | none, .assign =>
        let (s, pieces) := expand s fuel word
        if (Source.nameAt name).isEmpty then
          (s.broken (String.ofList name ++ ": bad variable name"), [])
        else (s.assignChecked name (textOf pieces), piecesOf quoted (textOf pieces))
      | none, .complain =>
        let (s, pieces) := expand s fuel word
        let message := if word.isEmpty then
            (if ifEmpty then "parameter not set or null" else "parameter not set").toList
          else textOf pieces
        (s.broken (String.ofList name ++ ": " ++ String.ofList message), [])
    | .trim name atEnd longest pattern quoted =>
      let (s, pieces) := expand s fuel pattern
      let p := Pattern.ofLetters (lettersOf pieces)
      let cs := (s.parameter? name).getD []
      (s, piecesOf quoted (if atEnd then p.dropEnd longest cs else p.dropStart longest cs))
    | .length name quoted =>
      (s, piecesOf quoted (toString (octetsOf ((s.parameter? name).getD [])).length).toList)
    | .substitution body quoted =>
      let (inside, flow) := finish (run s.apart fuel body) fuel
      let s := s.after inside
      let s := { s with substitutionStatus := s.status }
      match flow with
      | .killed _ => ({ s with ending := some flow }, [])
      | _ => (s, piecesOf quoted (substituted inside.printed))
    | .arithmetic expression quoted =>
      let (s, pieces) := expand s fuel expression
      let (s, cs) := s.evaluate (textOf pieces)
      (s, piecesOf quoted cs)
    | .misshapen => (s.broken "Bad substitution", [])
termination_by structural fuel => fuel

/-- Expands a word, which may start in the home directory. -/
def expandWord (s : State) : Nat → Word → State × List Piece
  | 0, _ => (s, [])
  | fuel + 1, word => expand s fuel (s.fromHome word)
termination_by structural fuel => fuel

/-- Expands words into fields. -/
def expandWords (s : State) : Nat → List Word → State × List (List Char)
  | 0, _ => (s, [])
  | _ + 1, [] => (s, [])
  | fuel + 1, word :: rest =>
    let (s, pieces) := expandWord s fuel word
    let found := (fields s.separators none pieces).flatMap s.pathnames
    let (s, more) := if s.ending.isSome then (s, []) else expandWords s fuel rest
    (s, found ++ more)
termination_by structural fuel => fuel

/-- Sets variables. -/
def assignWords (s : State) : Nat → List (List Char × Word) → State
  | 0, _ => s
  | _ + 1, [] => s
  | fuel + 1, (name, word) :: rest =>
    let (s, pieces) := expandWord s fuel word
    if s.ending.isSome then s else assignWords (s.assignChecked name (textOf pieces)) fuel rest
termination_by structural fuel => fuel

/-- Redirects descriptors. -/
def redirectAll (s : State) : Nat → List Redirection → Except State State
  | 0, _ => .ok s
  | _ + 1, [] => .ok s
  | fuel + 1, .mk n direction target :: rest =>
    let (s, pieces) := expand s fuel target
    if s.ending.isSome then .ok s
    else match redirect s n direction (textOf pieces) with
      | .ok s => redirectAll s fuel rest
      | .error s => .error s
termination_by structural fuel => fuel

/-- Becomes a program: the shell ends as the program does. The text stands
before the name of a program that cannot be started. -/
def become (s : State) (how : String) : Nat → List Char → List (List Char) → State × Flow
  | 0, _, _ => (s, .exit)
  | fuel + 1, called, arguments =>
    match (s.calledProgram called).1 with
    | .missing =>
      ({ s.complain (s.heading ++ how ++ String.ofList called ++ ": not found") with
        status := 127 }, .exit)
    | .denied =>
      let isUp := called.isEmpty || called == ['.'] || called == ['.', '.']
      ({ s.complain (s.heading ++ how ++ String.ofList called ++ ": Permission denied") with
        status := if isUp then 127 else 126 }, .exit)
    | .program "sh" | .program "bash" => runShell s fuel called arguments
    | .program "env" =>
      let assignments := arguments.takeWhile fun cs => cs.contains '='
      let s := assignments.foldl (fun s cs =>
        let name := cs.takeWhile (· != '=')
        (s.assign name (cs.drop (name.length + 1))).expose name) s
      match arguments.drop assignments.length with
      | [] =>
        let lines := s.environment.map fun (name, value) => name ++ ['='] ++ value ++ ['\n']
        (s.leave { out := lines.flatMap octetsOf }, .exit)
      | called :: arguments => become s "" fuel called arguments
    | .program name =>
      let call : Call := ⟨String.ofList called, arguments, s.input, s.files, s.here⟩
      match utility? name call with
      | some effect => ({ s.leave effect with input := [] }, .exit)
      | none => (((builtin? s name arguments).map (·.1)).getD s, .exit)
termination_by structural fuel => fuel

/-- Runs a program and tells if a signal ended it. -/
def runProgram (s : State) : Nat → List Char → List (List Char) → State × Flow
  | 0, _, _ => (s, .exit)
  | fuel + 1, called, arguments =>
    match become s "" fuel called arguments with
    | (s, .killed signal) =>
      let text := signalText signal
      ({ (if text.isEmpty then s else s.complain text) with status := 128 + signal }, .next)
    | (s, _) => (s, .next)
termination_by structural fuel => fuel

/-- Becomes a shell of its own: `-c` and a text, a file, or its input. -/
def runShell (s : State) : Nat → List Char → List (List Char) → State × Flow
  | 0, _, _ => (s, .next)
  | fuel + 1, called, arguments =>
    let start (c : ShellCall) (name text : List Char) (operands : List (List Char))
        (input : Octets) : State × Flow :=
      let inside : State := {
        files := s.files, here := s.here, name, operands,
        bindings := s.environment, exported := s.environment.map (·.1), habits := c.habits, input,
        out := s.out, err := s.err, outTo := s.outTo, errTo := s.errTo, others := s.others }
      let inside := (inside.assign "PWD".toList (State.pathText s.here)).expose "PWD".toList
      let (ended, flow) := finish (runText inside fuel { rest := text }) fuel
      let s := { s with
        files := ended.files, out := ended.out, err := ended.err, input := ended.input
        status := ended.status }
      match flow with
      | .killed signal => ({ s with status := 128 + signal }, flow)
      | _ => (s, .exit)
    let refuse (message : String) : State × Flow :=
      ({ s.complain (String.ofList called ++ ": 0: " ++ message) with status := 2 }, .exit)
    match ShellCall.read {} arguments with
    | .error option => refuse ("Illegal option " ++ String.ofList option)
    | .ok c =>
      if c.hasText then
        match c.operands with
        | [] => refuse "-c requires an argument"
        | [text] => start c called text [] s.input
        | text :: name :: operands => start c name text operands s.input
      else match c.operands with
        | [] => start c called s.input.decodeLossy [] []
        | file :: operands =>
          if c.readsInput then start c called s.input.decodeLossy c.operands []
          else match s.files.read s.here (pathOf file) with
            | .ok content => start c file content.decodeLossy operands s.input
            | .error .isDirectory => start c file [] operands s.input
            | .error _ => refuse ("cannot open " ++ String.ofList file ++ ": No such file")
termination_by structural fuel => fuel

/-- Runs the command for the end of a shell, whose status stays unless that
command ends the shell itself. -/
def finish (r : State × Flow) : Nat → State × Flow
  | 0 => r
  | fuel + 1 =>
    match r.2, r.1.trap? 0 with
    | .killed _, _ | _, none => r
    | flow, some text =>
      match runText { r.1 with traps := r.1.traps.filter (·.1 != 0) } fuel { rest := text } with
      | (s, .killed signal) => (s, .killed signal)
      | (s, .exit) => (s, flow)
      | (s, _) => ({ s with status := r.1.status }, flow)
termination_by structural fuel => fuel

/-- Runs a function. Its operands and its own variables end with it. -/
def runFunction (s : State) : Nat → Command → List (List Char) → State × Flow
  | 0, _, _ => (s, .exit)
  | fuel + 1, body, arguments =>
    let inside := { s with operands := arguments, outer := [], calls := s.calls + 1, loops := 0 }
    let (u, flow) := runCommand inside fuel body
    let u := u.outer.foldl (fun u v => u.restore v.1 v.2) u
    let u := { u with operands := s.operands, outer := s.outer, calls := s.calls, loops := s.loops }
    (u, if flow = .back then .next else flow)
termination_by structural fuel => fuel

/-- Runs a text in the same shell. -/
def runHere (s : State) (within : String) : Nat → List Char → State × Flow
  | 0, _ => (s, .exit)
  | fuel + 1, text =>
    let (u, flow) := runText { s with within, status := 0 } fuel { rest := text }
    ({ u with within := s.within, line := s.line }, flow)
termination_by structural fuel => fuel

/-- Runs a command by its name. -/
def runNamed (s : State) : Nat → List Char → List (List Char) → State × Flow
  | 0, _, _ => (s, .next)
  | fuel + 1, name, arguments =>
    match s.function? name with
    | some body => runFunction s fuel body arguments
    | none =>
      match String.ofList name, arguments with
      | "exec", called :: arguments => become { s with traps := [] } "exec: " fuel called arguments
      | "exec", [] => s.done
      | "type", names =>
        let effects := names.map (s.describe false)
        (s.leave (.gather effects), .next)
      | "command", ['-', 'p'] :: called :: arguments =>
        let (u, flow) := runNamed { s with functions := [] } fuel called arguments
        ({ u with functions := s.functions }, flow)
      | "command", ['-', 'v'] :: name :: _ => (s.leave (s.describe true name), .next)
      | "command", ['-', 'V'] :: name :: _ => (s.leave (s.describe false name), .next)
      | "command", called :: arguments =>
        let (u, flow) := runNamed { s with functions := [] } fuel called arguments
        ({ u with functions := s.functions }, flow)
      | "command", [] => s.done
      | "eval", arguments => runHere s "eval: " fuel (List.intercalate [' '] arguments)
      | ".", [] => s.done
      | ".", file :: _ =>
        if !file.contains '/' then s.fatal (".: " ++ String.ofList file ++ ": not found")
        else match s.files.read s.here (pathOf file) with
          | .ok content =>
            let (u, flow) := runHere s (String.ofList file ++ ": ") fuel content.decodeLossy
            (u, if flow = .back then .next else flow)
          | .error _ => s.fatal (".: cannot open " ++ String.ofList file ++ ": No such file")
      | word, arguments =>
        match builtin? s word arguments with
        | none => runProgram s fuel name arguments
        | some (t, .killed signal) =>
          match t.trap? signal with
          | some [] => (t, .next)
          | some text =>
            let (u, flow) := runText t fuel { rest := text }
            ({ u with line := s.line, status := if flow = .exit then u.status else t.status }, flow)
          | none => (t, if isHarmless signal then .next else .killed signal)
        | some r => r
termination_by structural fuel => fuel

/-- Runs a command of words. -/
def runSimple (s : State) : Nat → List (List Char × Word) → List Word → List Redirection →
    State × Flow
  | 0, _, _, _ => (s, .exit)
  | fuel + 1, assignments, words, redirections =>
    let (t, ws) := expandWords { s with substitutionStatus := 0 } fuel words
    let isSpecial := ws.isEmpty || specialNames.contains (String.ofList (ws.headD []))
    match if t.ending.isSome then .ok t else redirectAll t fuel redirections with
    | .error failed =>
      (failed.withSinksOf s |>.withInput s.input, if isSpecial && !ws.isEmpty then .exit else .next)
    | .ok t =>
      let names := assignments.map (·.1)
      let before := names.map fun name => (name, t.valueOf? name, t.exported.contains name)
      let t := if t.ending.isSome then t else assignWords t fuel assignments
      let t := if isSpecial then t else names.foldl State.expose t
      let trace := if s.habits.showsCommands ∧ (!ws.isEmpty ∨ !names.isEmpty) then
        ['+'] ++ names.flatMap (fun name => ' ' :: name ++ ['='] ++ (t.valueOf? name).getD [])
          ++ ws.flatMap (' ' :: ·) ++ ['\n'] else []
      let t := t.writeTo s.errTo (octetsOf trace)
      let (u, flow) : State × Flow := match t.ending with
        | some flow => ({ t with ending := none }, flow)
        | none =>
          match ws with
          | [] => ({ t with status := t.substitutionStatus }, .next)
          | name :: arguments => runNamed t fuel name arguments
      let u := if isSpecial then u else before.foldl (fun u (name, value, isExported) =>
        let u := u.restore name value
        if isExported then u else { u with exported := u.exported.filter (· != name) }) u
      if ws == ["exec".toList] then (u, flow)
      else (u.withSinksOf s |>.withInput (if redirections.isEmpty then u.input else s.input), flow)
termination_by structural fuel => fuel

/-- Runs a command. -/
def runCommand (s : State) : Nat → Command → State × Flow
  | 0, _ => (s, .exit)
  | fuel + 1, c =>
    let tested (r : State × Flow) : State × Flow := ({ r.1 with isTested := s.isTested }, r.2)
    let checked (r : State × Flow) : State × Flow :=
      if r.2 = .next ∧ r.1.status ≠ 0 ∧ r.1.habits.stopsOnFailure ∧ !r.1.isTested then (r.1, .exit)
      else r
    match c with
    | .simple line assignments words redirections =>
      checked (runSimple { s with line } fuel assignments words redirections)
    | .redirected line c redirections =>
      match redirectAll { s with line } fuel redirections with
      | .error failed => checked (failed.withSinksOf s |>.withInput s.input, .next)
      | .ok t =>
        match t.ending with
        | some flow => ({ t with ending := none }, flow)
        | none =>
          let (u, flow) := runCommand t fuel c
          (u.withSinksOf s |>.withInput s.input, flow)
    | .pipe left right =>
      let (inside, first) := finish (runCommand s.apart fuel left) fuel
      match first with
      | .killed _ => (s.after inside, first)
      | _ =>
        let t := s.after inside
        let (ended, flow) := finish (runCommand { t.inside with input := inside.printed } fuel right) fuel
        let u := { t with
          files := ended.files, out := ended.out, err := ended.err, status := ended.status }
        match flow with
        | .killed _ => (u, flow)
        | _ => checked (u, .next)
    | .both left right =>
      match tested (runCommand { s with isTested := true } fuel left) with
      | (s, .next) => if s.status = 0 then runCommand s fuel right else (s, .next)
      | r => r
    | .either left right =>
      match tested (runCommand { s with isTested := true } fuel left) with
      | (s, .next) => if s.status = 0 then (s, .next) else runCommand s fuel right
      | r => r
    | .negated c =>
      match tested (runCommand { s with isTested := true } fuel c) with
      | (s, .next) => ({ s with status := if s.status = 0 then 1 else 0 }, .next)
      | r => r
    | .branch test body alternative =>
      match tested (run { s with isTested := true } fuel test) with
      | (s, .next) =>
        if s.status = 0 then run s fuel body
        else if alternative.isEmpty then s.done
        else run s fuel alternative
      | r => r
    | .loop expected test body =>
      let (u, flow) := runLoop { s with loops := s.loops + 1 } fuel expected test body 0
      ({ u with loops := s.loops }, flow)
    | .each name words body =>
      let (t, ws) := match words with
        | some words => expandWords s fuel words
        | none => (s, s.operands)
      match t.ending with
      | some flow => ({ t with ending := none }, flow)
      | none =>
        let (u, flow) := runEach { t with loops := s.loops + 1, status := 0 } fuel name ws body
        ({ u with loops := s.loops }, flow)
    | .choose subject branches =>
      let (t, pieces) := expand s fuel subject
      match t.ending with
      | some flow => ({ t with ending := none }, flow)
      | none => runChoice t fuel (textOf pieces) branches
    | .define name body => { s with functions := (name, body) :: s.functions } |>.done
    | .group body => run s fuel body
    | .subshell body =>
      let (inside, flow) := finish (run s.inside fuel body) fuel
      let t := { s.after inside with out := inside.out }
      match flow with
      | .killed _ => (t, flow)
      | _ => checked (t, .next)
    | .aside c =>
      let (inside, _) := finish (runCommand { s.inside with input := [] } fuel c) fuel
      ({ s with files := inside.files, out := inside.out, err := inside.err, status := 0 }, .next)
termination_by structural fuel => fuel

/-- Runs a loop; its status is that of the body. -/
def runLoop (s : State) : Nat → Bool → List Command → List Command → Nat → State × Flow
  | 0, _, _, _, _ => (s, .exit)
  | fuel + 1, expected, test, body, status =>
    match run { s with isTested := true } fuel test with
    | (t, .next) =>
      let t := { t with isTested := s.isTested }
      if (t.status == 0) != expected then ({ t with status }, .next)
      else match run t fuel body with
        | (t, .next) | (t, .again 1) => runLoop t fuel expected test body t.status
        | (t, .again n) => (t, .again (n - 1))
        | (t, .leave n) => ({ t with status := 0 }, if n ≤ 1 then .next else .leave (n - 1))
        | r => r
    | (t, .leave n) => ({ t with status := 0, isTested := s.isTested }, if n ≤ 1 then .next else .leave (n - 1))
    | (t, flow) => ({ t with isTested := s.isTested }, flow)
termination_by structural fuel => fuel

/-- Runs a body for each word. -/
def runEach (s : State) : Nat → List Char → List (List Char) → List Command → State × Flow
  | 0, _, _, _ => (s, .exit)
  | _ + 1, _, [], _ => (s, .next)
  | fuel + 1, name, word :: words, body =>
    match run (s.assign name word) fuel body with
    | (s, .next) | (s, .again 1) => runEach s fuel name words body
    | (s, .again n) => (s, .again (n - 1))
    | (s, .leave n) => ({ s with status := 0 }, if n ≤ 1 then .next else .leave (n - 1))
    | r => r
termination_by structural fuel => fuel

/-- Runs the first branch with a pattern for a text. -/
def runChoice (s : State) : Nat → List Char → List (List Word × List Command) → State × Flow
  | 0, _, _ => (s, .exit)
  | _ + 1, _, [] => s.done
  | fuel + 1, text, (patterns, body) :: branches =>
    let (s, isChosen) := anyPattern s fuel text patterns
    if isChosen then (if body.isEmpty then s.done else run s fuel body)
    else runChoice s fuel text branches
termination_by structural fuel => fuel

/-- Whether any of some patterns stands for a text. -/
def anyPattern (s : State) : Nat → List Char → List Word → State × Bool
  | 0, _, _ => (s, false)
  | _ + 1, _, [] => (s, false)
  | fuel + 1, text, pattern :: patterns =>
    let (s, pieces) := expand s fuel pattern
    if (Pattern.ofLetters (lettersOf pieces)).matches text then (s, true)
    else anyPattern s fuel text patterns
termination_by structural fuel => fuel

/-- Runs commands in a row. -/
def run (s : State) : Nat → List Command → State × Flow
  | 0, _ => (s, .exit)
  | _ + 1, [] => (s, .next)
  | fuel + 1, c :: cs =>
    match runCommand s fuel c with
    | (s, .next) => run s fuel cs
    | r => r
termination_by structural fuel => fuel

/-- Reads and runs a text line by line. -/
def runText (s : State) : Nat → Source → State × Flow
  | 0, _ => (s, .exit)
  | fuel + 1, source =>
    match source.line? with
    | .error fault =>
      let s := { s with line := fault.line }
      ({ s.complain (s.heading ++ fault.flaw.message) with status := 2 }, .exit)
    | .ok none => (s, .next)
    | .ok (some (cs, rest)) =>
      match run s fuel cs with
      | (s, .next) => runText s fuel rest
      | r => r
termination_by structural fuel => fuel

end

/-! ## Processes -/

/-- How deep commands may nest and how often loops may run. -/
def patience : Nat := 200000

/-- The output of a finished shell. -/
def outputOf (r : State × Flow) : ProcessOutput where
  code := match r.2 with
    | .killed _ => none
    | _ => some (Int.ofNat r.1.status)
  stdout := r.1.printed.toStringLossy
  stderr := r.1.complaints.toStringLossy

/-- The programs of the system. -/
def programs : List String :=
  ["sh", "bash", "env", "true", "false", "printf", "pwd", "kill", "test", "["] ++ utilities.map (·.1)

/-- Files with the programs of the system and its empty file. -/
def withPrograms (files : FileTree) : FileTree :=
  let octets := Octets.ofString
  let t := files.write [octets "dev", octets "null"] (.file [])
  programs.foldl (fun t name =>
    (t.write [octets "bin", octets name] (.program name)).write
      [octets "usr", octets "bin", octets name] (.program name)) t

/-- Runs a shell with a command line in a directory: what it leaves, or why it
cannot be started, and the files afterwards. -/
def execute (files : FileTree) (environment : List (String × String)) (shell : String)
    (commandLine : String) (here : FileNames) (directory : Path) : Execution × FileTree :=
  let system := withPrograms files
  if shell.contains '\x00' || commandLine.contains '\x00' || directory.octets.contains 0 then
    (.error "nul byte found in provided data", files)
  else match system.directory here directory with
  | .error fault => (.error fault.message, files)
  | .ok here =>
    let called := shell.toList
    let s : State := {
      files := system, here, name := called,
      bindings := environment.map fun v => (v.1.toList, v.2.toList),
      exported := environment.map fun v => v.1.toList }
    match (s.calledProgram called).1 with
    | .program _ =>
      let r := become s "" patience called [['-', 'c'], commandLine.toList]
      (.ok (outputOf r), r.1.files)
    | .denied => (.error (if called.isEmpty then FileFault.notFound else .denied).message, files)
    | .missing =>
      let fault := if called.contains '/' then
        (match system.follow here (pathOf called) with
          | .error fault => fault
          | .ok _ => .notFound) else .notFound
      (.error fault.message, files)

/-- The shell that runs command lines when the environment names none. -/
def standardShell : String := "/bin/sh"

/-- The shell to use: the given one, else that of the environment, else the
standard one. An empty name in the environment is none. -/
def choose (given environment : Option String) : String :=
  (given.orElse fun _ => environment.filter (!·.isEmpty)).getD standardShell

end DiagnosticRelay.Shell
