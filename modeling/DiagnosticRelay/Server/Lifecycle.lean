import DiagnosticRelay.Server.Call
import DiagnosticRelay.Server.Session

/-!
# The life of a server

A server is first to be initialized, then works, is shut down and left. When a
call comes decides whether it is carried out.

## Main definitions

* `Phase`: where a server is in its life.
* `Server`: a server and its session.
* `Server.carryOut`: what an order does.
* `Server.receive`: what a call does, in the phase in which it comes.
* `Server.receiveDirectly`: what a call does whenever it comes.
-/

namespace DiagnosticRelay

open Json (Value)

/-- Where a server is in its life. -/
inductive Phase where
  | fresh
  | working
  | shutDown
  | exited
  deriving DecidableEq, Repr

/-- A dialogue with the editor of a phase. -/
def Phase.heard {α : Type} (p : Phase) (d : Dialogue α) : Dialogue α :=
  match p with
  | .fresh => d.withheld
  | .working | .shutDown => d
  | .exited => d.silenced

/-- What comes back for a call. -/
inductive Answer where
  /-- Nothing. -/
  | silence
  | result (value : Value)
  | fault (fault : CallFault)
  /-- The server is gone. -/
  | gone

/-- A server. -/
structure Server where
  /-- The directory the server runs in. -/
  here : Path
  phase : Phase := .fresh
  session : Option Session := none
  deriving DecidableEq, Repr

namespace Server

/-- The name of the server. -/
def name : String := "phpstan-lsp"

/-- The version of the server. -/
def version : String := "0.1.0"

/-- The command that analyses the project. -/
def analyseCommand : String := "phpstan.analyse"

/-- How the server wants to hear of documents: only when they are saved. -/
def documentTraits : Value :=
  .object [("openClose", .bool false), ("change", .int 0),
    ("save", .object [("includeText", .bool false)])]

/-- The commands that the server offers. -/
def commandTraits : Value := .object [("commands", .array [.string analyseCommand])]

/-- What the server says about itself. -/
def introduction : Value :=
  .object [
    ("capabilities",
      .object [("textDocumentSync", documentTraits), ("executeCommandProvider", commandTraits)]),
    ("serverInfo", .object [("name", .string name), ("version", .string version)])]

/-! ## Orders -/

/-- The session for a workspace. One that is there already stays, and only takes
the settings of the files. -/
def sessionWith (s : Server) (root : Path) (abilities : Abilities) (fileSettings : Settings) :
    Session :=
  let channel := (s.session.elim {} (·.channel)).replace fileSettings
  match s.session with
  | some session => { session with channel }
  | none => { root, fileSettings, abilities, channel }

/-- The server gets to know its editor and its workspace. -/
def meet (s : Server) (greeting : Greeting) : Dialogue Server := do
  let root := greeting.root?.getD s.here
  let fileSettings ← Dialogue.consulting root
  return { s with session := some (s.sessionWith root greeting.abilities fileSettings) }

/-- What happens in the session, if there is one. -/
def within (s : Server) (act : Session → Dialogue Session) : Dialogue Server :=
  match s.session with
  | none => return s
  | some session => do return { s with session := some (← act session) }

/-- What a saved document does, if it is known. -/
def saved (s : Server) : Option Url → Dialogue Server
  | none => return s
  | some document => s.within (·.documentSaved document)

/-- A command is executed. -/
def executeCommand (s : Server) (command : String) : Dialogue (Server × Except CallFault Value) := do
  if command ≠ analyseCommand then
    return (s, .error (.unknownCommand command))
  if s.session.isNone then
    return (s, .error .invalidRequest)
  return (← s.within (·.analyse none), .ok .null)

/-- What an order does, and its result. -/
def carryOut (s : Server) : Order → Dialogue (Server × Except CallFault Value)
  | .greet greeting => do return (← s.meet greeting, .ok introduction)
  | .greeted => do return (← s.within Session.start, .ok .null)
  | .documentSaved document => do return (← s.saved document, .ok .null)
  | .filesChanged documents => do return (← s.within (·.filesChanged documents), .ok .null)
  | .settingsChanged settings => do return (← s.within (·.settingsChanged settings), .ok .null)
  | .executeCommand command => s.executeCommand command
  | .notOffered => return (s, .error .notOffered)
  | .shutdown | .noEffect => return (s, .ok .null)

/-! ## Calls -/

/-- The answer to a request with a result. -/
def answerOf : Except CallFault Value → Answer
  | .ok v => .result v
  | .error fault => .fault fault

/-- A fault, for a call that wants an answer. -/
def refuse (s : Server) (c : Call) (fault : CallFault) : Dialogue (Server × Answer) :=
  return (s, if c.isRequest then .fault fault else .silence)

/-- A call is carried out, whatever the phase is. A request that comes as a
notification, or the other way round, is passed over. -/
def attempt (s : Server) (m : Method) (c : Call) : Dialogue (Server × Answer) :=
  if m.isRequest ≠ c.isRequest then return (s, .silence)
  else match Order.ofParams c.params m with
    | .error fault => s.refuse c fault
    | .ok order => do
      let (after, result) ← s.carryOut order
      return (after, if c.isRequest then answerOf result else .silence)

/-- The fault of a call that comes in the wrong phase. -/
def untimely (p : Phase) : CallFault :=
  match p with
  | .fresh => .notInitialized
  | _ => .invalidRequest

/-- A call that initializes the server. Only once it has a result does the server
work. -/
def receiveFirst (s : Server) (c : Call) : Dialogue (Server × Answer) := do
  let (after, answer) ← s.attempt .greet c
  match answer with
  | .result _ => return ({ after with phase := .working }, answer)
  | _ => return (after, answer)

/-- What a call of a known method does. -/
def receiveKnown (s : Server) (m : Method) (c : Call) : Dialogue (Server × Answer) :=
  match m, s.phase with
  | .exit, _ => return ({ s with phase := .exited }, .silence)
  | .noEffect, _ => return (s, .silence)
  | .greet, .fresh => s.receiveFirst c
  | .greet, _ => s.refuse c .invalidRequest
  | .shutdown, .working => ({ s with phase := .shutDown } : Server).attempt .shutdown c
  | m, .working => s.attempt m c
  | _, phase => s.refuse c (untimely phase)

/-- What a call of an unknown method does. Calls under `$/` may be passed over. -/
def receiveUnknown (s : Server) (c : Call) : Dialogue (Server × Answer) :=
  if c.method.startsWith "$/" then return (s, .silence)
  else s.refuse c (.unknownMethod c.method)

/-- What a call does. -/
def receive (s : Server) (c : Call) : Dialogue (Server × Answer) :=
  if s.phase = .exited then return (s, .gone)
  else match Method.ofName? c.method with
    | none => s.receiveUnknown c
    | some m => s.phase.heard (s.receiveKnown m c)

/-- What a call does whenever it comes. The phase only decides what the editor
hears of it. -/
def receiveDirectly (s : Server) (c : Call) : Dialogue (Server × Answer) :=
  match Method.ofName? c.method with
  | none => s.receiveUnknown c
  | some m => s.phase.heard (s.attempt m c)

end Server

end DiagnosticRelay
