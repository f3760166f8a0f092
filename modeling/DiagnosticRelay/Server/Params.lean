import DiagnosticRelay.Json.Shape
import DiagnosticRelay.Url.FilePath

/-!
# What an editor sends along

The parameters of the calls that mean something here, read from their JSON.

## Main definitions

* `Greeting`: what an editor says about itself and its workspace.
* `Greeting.root?`: the root of its workspace.
* `Params.savedDocument`, `Params.changedDocuments`, `Params.changedSettings`,
  `Params.commandName`: what the other calls say.
-/

namespace DiagnosticRelay

open Json (Value Shape Misfit)

/-- What an editor can do beyond showing diagnostics. -/
structure Abilities where
  /-- It shows the progress of work. -/
  progress : Bool := false
  /-- It can be asked for settings. -/
  configuration : Bool := false
  /-- It watches files on demand. -/
  watching : Bool := false
  deriving DecidableEq, Repr

/-- What an editor says about itself and its workspace. -/
structure Greeting where
  folders : List Url
  rootUrl : Option Url
  rootPath : Option String
  abilities : Abilities
  deriving DecidableEq, Repr

namespace Greeting

/-- The directory of the first folder, if it is one of this machine. -/
def folderRoot? (g : Greeting) : Option Path := g.folders.head?.bind Url.filePath?

/-- The root of the workspace: the first folder, else the root URL, else the
root path. -/
def root? (g : Greeting) : Option Path :=
  g.folderRoot?.orElse fun _ =>
    (g.rootUrl.bind Url.filePath?).orElse fun _ => g.rootPath.map Path.ofString

end Greeting

namespace Params

/-! ## Shapes -/

/-- A field that may be absent or `null` and otherwise is some record. -/
def someRecord (key name : String) : String × Shape := (key, .nullable (.anyRecord name))

/-- A field that may be absent or `null` and otherwise is a truth value. -/
def someFlag (key : String) : String × Shape := (key, .nullable .boolean)

/-- What an editor says about watching files. -/
def watchedFilesShape : Shape :=
  .record "DidChangeWatchedFilesClientCapabilities"
    [someFlag "dynamicRegistration", someFlag "relativePatternSupport"]

/-- What an editor says about a call that it offers on demand. -/
def registrationShape : Shape :=
  .record "DynamicRegistrationClientCapabilities" [someFlag "dynamicRegistration"]

/-- What an editor says about workspaces. -/
def workspaceShape : Shape :=
  .record "WorkspaceClientCapabilities" [
    someFlag "applyEdit",
    someRecord "workspaceEdit" "WorkspaceEditClientCapabilities",
    ("didChangeConfiguration", .nullable registrationShape),
    ("didChangeWatchedFiles", .nullable watchedFilesShape),
    someRecord "symbol" "WorkspaceSymbolClientCapabilities",
    ("executeCommand", .nullable registrationShape),
    someFlag "workspaceFolders",
    someFlag "configuration",
    someRecord "semanticTokens" "SemanticTokensWorkspaceClientCapabilities",
    someRecord "codeLens" "CodeLensWorkspaceClientCapabilities",
    someRecord "fileOperations" "WorkspaceFileOperationsClientCapabilities",
    someRecord "inlineValue" "InlineValueWorkspaceClientCapabilities",
    someRecord "inlayHint" "InlayHintWorkspaceClientCapabilities"]

/-- What an editor says about its windows. -/
def windowShape : Shape :=
  .record "WindowClientCapabilities" [
    someFlag "workDoneProgress",
    someRecord "showMessage" "ShowMessageRequestClientCapabilities",
    someRecord "showDocument" "ShowDocumentClientCapabilities"]

/-- What an editor says about its abilities. -/
def abilitiesShape : Shape :=
  .record "ClientCapabilities" [
    ("workspace", .nullable workspaceShape),
    someRecord "textDocument" "TextDocumentClientCapabilities",
    someRecord "notebookDocument" "NotebookDocumentClientCapabilities",
    ("window", .nullable windowShape),
    someRecord "general" "GeneralClientCapabilities",
    ("experimental", .nullable .any)]

/-- A folder of a workspace. -/
def folderShape : Shape := .record "WorkspaceFolder" [("uri", .url), ("name", .text)]

/-- The name and the version of an editor. -/
def editorShape : Shape := .record "ClientInfo" [("name", .text), ("version", .nullable .text)]

/-- A greeting. -/
def greetingShape : Shape :=
  .record "InitializeParams" [
    ("processId", .nullable .natural32),
    ("rootPath", .nullable .text),
    ("rootUri", .defaulted (.nullable .url)),
    ("initializationOptions", .nullable .any),
    ("capabilities", abilitiesShape),
    ("trace", .defaulted (.nullable (.choice ["off", "messages", "verbose"]))),
    ("workspaceFolders", .nullable (.list folderShape)),
    ("clientInfo", .nullable editorShape),
    ("locale", .nullable .text)]

/-- A document by its URL. -/
def documentShape : Shape := .record "TextDocumentIdentifier" [("uri", .url)]

/-- A saved document. -/
def savedShape : Shape :=
  .record "DidSaveTextDocumentParams"
    [("textDocument", documentShape), ("text", .nullable .text)]

/-- A changed file. -/
def changeShape : Shape := .record "FileEvent" [("uri", .url), ("type", .integer32)]

/-- Changed files. -/
def changesShape : Shape :=
  .record "DidChangeWatchedFilesParams" [("changes", .list changeShape)]

/-- Changed settings. -/
def changedSettingsShape : Shape :=
  .record "DidChangeConfigurationParams" [("settings", .any)]

/-- A command with its arguments. -/
def commandShape : Shape :=
  .keyed "ExecuteCommandParams" [
    ("command", .text),
    ("arguments", .defaulted (.list .any)),
    ("workDoneToken", .nullable .token)]

/-- Nothing at all. -/
def emptyShape : Shape := .record "InitializedParams" []

/-- A position in a document. -/
def spotShape : Shape := .record "Position" [("line", .natural32), ("character", .natural32)]

/-- A document and a position in it. -/
def documentSpotShape : Shape :=
  .keyed "TextDocumentPositionParams" [("textDocument", documentShape), ("position", spotShape)]

/-- A document and whatever else. -/
def someDocumentShape : Shape := .keyed "TextDocumentParams" [("textDocument", documentShape)]

/-! ## Reading -/

/-- The value of a key, or `null`. -/
def at? (v : Value) (key : String) : Value := (v.member? key).getD .null

/-- The URL of a text that is one. -/
def url? (v : Value) : Option Url := v.string?.bind fun s => (Url.parse s).toOption

/-- Whether a flag is set. -/
def isSet (v : Value) (key : String) : Bool := (at? v key).bool?.getD false

/-- The abilities that an editor announces. -/
def abilitiesOf (announced : Value) : Abilities :=
  let workspace := at? announced "workspace"
  { progress := isSet (at? announced "window") "workDoneProgress"
    configuration := isSet workspace "configuration"
    watching := isSet (at? workspace "didChangeWatchedFiles") "dynamicRegistration" }

/-- The URLs that records have under a key. -/
def urlsAt (key : String) (records : List Value) : List Url :=
  records.filterMap fun v => url? (at? v key)

/-- The greeting of an editor. -/
def greeting (v : Value) : Except Misfit Greeting := do
  let v ← greetingShape.fit v
  return {
    folders := urlsAt "uri" ((at? v "workspaceFolders").array?.getD [])
    rootUrl := url? (at? v "rootUri")
    rootPath := (at? v "rootPath").string?
    abilities := abilitiesOf (at? v "capabilities") }

/-- The document that was saved. -/
def savedDocument (v : Value) : Except Misfit (Option Url) := do
  let v ← savedShape.fit v
  return url? (at? (at? v "textDocument") "uri")

/-- The documents that were changed. -/
def changedDocuments (v : Value) : Except Misfit (List Url) := do
  let v ← changesShape.fit v
  return urlsAt "uri" ((at? v "changes").array?.getD [])

/-- The settings that were changed. -/
def changedSettings (v : Value) : Except Misfit Value := do
  let v ← changedSettingsShape.fit v
  return at? v "settings"

/-- The name of a command. -/
def commandName (v : Value) : Except Misfit String := do
  let v ← commandShape.fit v
  return (at? v "command").string?.getD ""

end Params

end DiagnosticRelay
