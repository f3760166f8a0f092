import DiagnosticRelay.Run.Pass
import DiagnosticRelay.Server.Dialogue
import DiagnosticRelay.Server.Params
import DiagnosticRelay.Settings.Channel
import DiagnosticRelay.Settings.Overlay
import DiagnosticRelay.Trigger

/-!
# Sessions

A session is the work for one workspace: it runs the analyser, publishes what a
run changed, takes settings from the editor and keeps the watched files in line
with them.

## Main definitions

* `Session`: what the server knows about its workspace.
* `Session.analyse`: one run, with its progress and what it publishes.
* `Session.applyValue`: settings from the editor take effect.
* `Session.renewWatch`: the watched files follow the settings.
* `Session.start`, `Session.documentSaved`, `Session.filesChanged`,
  `Session.settingsChanged`: what the session does on the calls.
-/

namespace DiagnosticRelay

open Json (Value Misfit)

/-- What the server knows about its workspace. -/
structure Session where
  root : Path
  /-- The settings of the workspace's own files. -/
  fileSettings : Settings
  abilities : Abilities
  /-- The settings in force. -/
  channel : Channel := {}
  store : Store := {}
  /-- Whether the editor watches files for the server. -/
  isWatching : Bool := false
  /-- The next token. After the last one the first comes again. -/
  nextToken : UInt64 := 0
  deriving DecidableEq, Repr

/-- The wording of a value that is no settings. -/
def Settings.misfitMessage (m : Misfit) : String := "Invalid settings: " ++ m.message

namespace Session

/-- The settings in force. -/
def settings (s : Session) : Settings := s.channel.current

/-! ## Progress -/

/-- Work with a text begins: under a token, if the editor shows progress and
takes the token. A refused token is used up as well. -/
def beginWork (s : Session) (text : String) : Dialogue (Session × Option UInt64) := do
  if !s.abilities.progress then
    return (s, none)
  let token := s.nextToken
  let s := { s with nextToken := token + 1 }
  if (← Dialogue.asking (.progress token)).isConsent then
    Dialogue.telling (.beginWork token text)
    return (s, some token)
  return (s, none)

/-- Work under a token, if any, ends with a text. -/
def endWork (token : Option UInt64) (text : String) : Dialogue Unit :=
  Dialogue.tellAll (token.toList.map fun t => .endWork t text)

/-! ## Runs -/

/-- The name of the work of a run. -/
def workName : Option Path → String
  | none => "analysing project"
  | some target => "analysing " ++ target.display

/-- The notice of what the store has for a path. A path without a URL has none. -/
def publication? (store : Store) (p : Path) : Option Notice :=
  (Url.ofFilePath? p).map fun document =>
    .publish document (((store.get? p).getD []).map (Diagnostic.publish document))

/-- A text that names the analyser. -/
def remark (text : String) : String := "PHPStan: " ++ text

/-- How a run that succeeded is told: what it touched, the messages that belong to
no file, and its status. -/
def tellSummary (store : Store) (summary : Summary) (token : Option UInt64) : Dialogue Unit := do
  let status := summary.status.getD "done"
  Dialogue.tellAll (summary.touched.filterMap (publication? store))
  Dialogue.tellAll (summary.generalErrors.map fun text => .show .warning (remark text))
  Dialogue.telling (.log .info (remark status))
  endWork token status

/-- How a run that failed is told. -/
def tellFailure (failure : Failure) (token : Option UInt64) : Dialogue Unit := do
  endWork token "failed"
  Dialogue.telling (.show .error failure.message)

/-- Runs the analyser on the project or on a file, and tells what came of it. -/
def analyse (s : Session) (target : Option Path) : Dialogue Session := do
  let (s, token) ← s.beginWork (workName target)
  let launch := Launch.of s.root s.settings s.store target
  let execution ← Dialogue.executing launch.commandLine s.root
  let (store, outcome) := launch.conclude execution s.store
  match outcome with
  | .ok summary => tellSummary store summary token
  | .error failure => tellFailure failure token
  return { s with store }

/-! ## Watched files -/

/-- Ends the watching of files, if there is any. Whether the editor agrees does
not matter. -/
def endWatch (s : Session) : Dialogue Session := do
  if s.isWatching then
    let _ ← Dialogue.asking .unwatch
  return { s with isWatching := false }

/-- Lets the editor watch the files of the glob in force instead of those it
watches, if it can. -/
def renewWatch (s : Session) : Dialogue Session := do
  if !s.abilities.watching then
    return s
  let s ← s.endWatch
  let reply ← Dialogue.asking (.watch s.settings.watchGlob)
  return { s with isWatching := reply.isConsent }

/-! ## Settings -/

/-- A text about settings. -/
def settingsRemark (text : String) : String := "PHPStan settings: " ++ text

/-- The notice that settings have a malformed glob. -/
def globNotices (settings : Settings) : List Notice :=
  match Glob.parse settings.watchGlob with
  | .ok _ => []
  | .error fault => [.show .error (settingsRemark (fault.watchMessage settings.watchGlob))]

/-- Settings take effect; if they bring another glob, the watched files follow. -/
def adopt (s : Session) (settings : Settings) : Dialogue Session := do
  Dialogue.tellAll (globNotices settings)
  let adopted := { s with channel := s.channel.replace settings }
  if settings.watchGlob = s.settings.watchGlob then
    return adopted
  adopted.renewWatch

/-- What the editor gives takes effect over the settings of the files. What does
not fit changes nothing. -/
def applyValue (s : Session) (v : Value) : Dialogue Session :=
  match s.fileSettings.withValue v with
  | .ok settings => s.adopt settings
  | .error m => do
    Dialogue.telling (.show .error (settingsRemark (Settings.misfitMessage m)))
    return s

/-- Asks the editor for its settings, if it can be asked. -/
def askValue (s : Session) : Dialogue (Option Value) := do
  if !s.abilities.configuration then
    return none
  return (← Dialogue.asking .settings).firstValue?

/-- What the editor gives takes effect, if it gives anything. -/
def applyValue? (s : Session) : Option Value → Dialogue Session
  | none => return s
  | some v => s.applyValue v

/-! ## Calls -/

/-- The session begins: it takes the editor's settings, lets it watch files and
analyses the project. -/
def start (s : Session) : Dialogue Session := do
  let s ← s.applyValue? (← s.askValue)
  let s ← s.renewWatch
  s.analyse none

/-- A document was saved. -/
def documentSaved (s : Session) (document : Url) : Dialogue Session :=
  match document.filePath?.filter Path.isPhp with
  | some path => s.analyse (some path)
  | none => return s

/-- Watched files were changed. -/
def filesChanged (s : Session) (documents : List Url) : Dialogue Session :=
  if s.settings.watches s.root (documents.filterMap Url.filePath?) then s.analyse none
  else return s

/-- The editor's settings were changed. What it gives along counts, else it is
asked. -/
def settingsChanged (s : Session) (given : Value) : Dialogue Session := do
  match given.member? Settings.sectionName with
  | some v => s.applyValue v
  | none => s.applyValue? (← s.askValue)

end Session

end DiagnosticRelay
