/-!
# The command line

The program serves an editor unless it is told to check a project once. Options
may come in any order; what follows `--` is an operand whatever it looks like.

## Main definitions

* `CheckRequest`: what is to be checked.
* `Instruction`: what the arguments ask for.
* `Instruction.ofArguments`: the instruction of arguments.
* `Topic.text`: the help on a topic.
-/

namespace DiagnosticRelay

/-- What is to be checked. -/
structure CheckRequest where
  /-- The root of the project; none for the current directory. -/
  root : Option String := none
  /-- The file to check; none for the whole project. -/
  file : Option String := none
  deriving DecidableEq, Repr

/-- What help is about. -/
inductive Topic where
  | program
  | serve
  | check
  | help
  deriving DecidableEq, Repr

/-- What the arguments ask for. -/
inductive Instruction where
  | serve
  | check (request : CheckRequest)
  | help (topic : Topic)
  | version
  deriving DecidableEq, Repr

/-- Why arguments ask for nothing. -/
inductive UsageFault where
  | unexpected (argument : String)
  | noValue (option : String)
  | repeated (option : String)
  deriving DecidableEq, Repr

/-- The wording of a usage fault. -/
def UsageFault.message : UsageFault → String
  | .unexpected argument => "error: unexpected argument '" ++ argument ++ "' found"
  | .noValue option => "error: a value is required for '" ++ option ++ "' but none was supplied"
  | .repeated option => "error: the argument '" ++ option ++ "' cannot be used multiple times"

/-- The name of the program with its version. -/
def versionText : String := "phpstan-lsp 0.1.0\n"

/-- The help on a topic. -/
def Topic.text : Topic → String
  | .program =>
    "Language Server that publishes PHPStan findings as diagnostics\n\n"
    ++ "Usage: phpstan-lsp [COMMAND]\n\n"
    ++ "Commands:\n"
    ++ "  serve  Serve LSP over stdio (default)\n"
    ++ "  check  Analyse once and print the findings\n"
    ++ "  help   Print this message or the help of the given subcommand(s)\n\n"
    ++ "Options:\n"
    ++ "  -h, --help     Print help\n"
    ++ "  -V, --version  Print version\n"
  | .check =>
    "Analyse once and print the findings\n\n"
    ++ "Usage: phpstan-lsp check [OPTIONS] [FILE]\n\n"
    ++ "Arguments:\n"
    ++ "  [FILE]  Analyse a single file instead of the whole project\n\n"
    ++ "Options:\n"
    ++ "      --root <ROOT>  Project root (default: current directory)\n"
    ++ "  -h, --help         Print help\n"
  | .serve =>
    "Serve LSP over stdio (default)\n\n"
    ++ "Usage: phpstan-lsp serve\n\n"
    ++ "Options:\n"
    ++ "  -h, --help  Print help\n"
  | .help =>
    "Print this message or the help of the given subcommand(s)\n\n"
    ++ "Usage: phpstan-lsp help [COMMAND]...\n\n"
    ++ "Arguments:\n"
    ++ "  [COMMAND]...  Print help for the subcommand(s)\n"

/-- What an argument looks like. -/
inductive ArgumentKind where
  /-- It is `--`. -/
  | divider
  /-- It asks for help: `--help`, or one dash and letters that start with `h`. -/
  | help
  /-- It asks for the version: `--version`, or one dash and letters that start with `V`. -/
  | version
  /-- It is `--root`, with its value if one is joined with `=`. -/
  | root (value : Option String)
  /-- It is any other option. -/
  | option
  /-- It is no option. A single dash is none. -/
  | operand
  deriving DecidableEq, Repr

/-- The kind of an argument. -/
def ArgumentKind.of (argument : String) : ArgumentKind :=
  match argument.toList with
  | ['-', '-'] => .divider
  | '-' :: '-' :: long =>
    if long = "help".toList then .help
    else if long = "version".toList then .version
    else if long = "root".toList then .root none
    else if "root=".toList.isPrefixOf long then .root (some (String.ofList (long.drop 5)))
    else .option
  | '-' :: 'h' :: _ => .help
  | '-' :: 'V' :: _ => .version
  | '-' :: _ :: _ => .option
  | _ => .operand

namespace CheckRequest

/-- The option that names the root, as messages show it. -/
def rootOption : String := "--root <ROOT>"

/-- A request with a root, which may be given once and is not empty. -/
def withRoot (r : CheckRequest) (value : String) : Except UsageFault CheckRequest :=
  if value.isEmpty then .error (.noValue rootOption)
  else if r.root.isSome then .error (.repeated rootOption)
  else .ok { r with root := some value }

/-- A request with a file, which may be given once and is not empty. -/
def withFile (r : CheckRequest) (value : String) : Except UsageFault CheckRequest :=
  if r.file.isSome then .error (.unexpected value)
  else if value.isEmpty then .error (.noValue "[FILE]")
  else .ok { r with file := some value }

/-- A request with operands. -/
def withFiles (r : CheckRequest) : List String → Except UsageFault CheckRequest
  | [] => .ok r
  | value :: rest => do (← r.withFile value).withFiles rest

end CheckRequest

namespace Instruction

/-- The instruction of the arguments of `check`. -/
def ofCheck (r : CheckRequest) : List String → Except UsageFault Instruction
  | [] => .ok (.check r)
  | argument :: rest =>
    match ArgumentKind.of argument with
    | .divider => (r.withFiles rest).map .check
    | .help => .ok (.help .check)
    | .root (some value) => do ofCheck (← r.withRoot value) rest
    | .root none =>
      match rest with
      | [] => .error (.noValue CheckRequest.rootOption)
      | value :: rest =>
        if ArgumentKind.of value = .operand then do ofCheck (← r.withRoot value) rest
        else .error (.noValue CheckRequest.rootOption)
    | .version | .option => .error (.unexpected argument)
    | .operand => do ofCheck (← r.withFile argument) rest

/-- The instruction of the arguments of `serve`, which takes no operands. -/
def ofServe : List String → Except UsageFault Instruction
  | [] => .ok .serve
  | argument :: rest =>
    match ArgumentKind.of argument, rest with
    | .divider, [] => .ok .serve
    | .help, _ => .ok (.help .serve)
    | _, _ => .error (.unexpected argument)

/-- The instruction of the arguments of `help`. -/
def ofHelp : List String → Except UsageFault Instruction
  | [] => .ok (.help .program)
  | ["check"] => .ok (.help .check)
  | ["serve"] => .ok (.help .serve)
  | ["help"] => .ok (.help .help)
  | argument :: _ => .error (.unexpected argument)

/-- The instruction of arguments. -/
def ofArguments : List String → Except UsageFault Instruction
  | [] => .ok .serve
  | "check" :: rest => ofCheck {} rest
  | "serve" :: rest => ofServe rest
  | "help" :: rest => ofHelp rest
  | argument :: rest =>
    match ArgumentKind.of argument, rest with
    | .divider, [] => .ok .serve
    | .help, _ => .ok (.help .program)
    | .version, _ => .ok .version
    | _, _ => .error (.unexpected argument)

end Instruction

end DiagnosticRelay
