import DiagnosticRelay.Json.Printer
import DiagnosticRelay.Server.Params

/-!
# What an editor calls for

A call names a method and may bring parameters. A request wants an answer, a
notification does not.

## Main definitions

* `Call`: a call as it comes in.
* `Method`: the methods that are told apart.
* `Order`: a call that is understood.
* `CallFault`: why a request has no result.
* `Order.ofParams`: the order of a call.
-/

namespace DiagnosticRelay

open Json (Value Shape Misfit)

/-- A call as it comes in. -/
structure Call where
  method : String
  params : Option Value
  /-- Whether an answer is wanted. -/
  isRequest : Bool

/-- The methods that are told apart. -/
inductive Method where
  | greet
  | greeted
  | shutdown
  | exit
  | documentSaved
  | filesChanged
  | settingsChanged
  | executeCommand
  /-- A request that is known but not offered, with the shape of its parameters. -/
  | notOffered (params : Shape)
  /-- A notification that is known but has no effect. -/
  | noEffect

/-- An order: a call that is understood. -/
inductive Order where
  | greet (greeting : Greeting)
  | greeted
  | shutdown
  | documentSaved (document : Option Url)
  | filesChanged (documents : List Url)
  | settingsChanged (settings : Value)
  | executeCommand (name : String)
  | notOffered
  | noEffect

/-- Why a request has no result. -/
inductive CallFault where
  /-- The method means nothing here. -/
  | unknownMethod (method : String)
  /-- The method is known but not offered. -/
  | notOffered
  /-- The server waits to be initialized. -/
  | notInitialized
  /-- The request comes at the wrong time. -/
  | invalidRequest
  | missingParams
  | unexpectedParams (params : Value)
  | misfit (misfit : Misfit)
  | unknownCommand (name : String)
  /-- A message is no JSON. -/
  | unreadable

/-- The number of a fault. -/
def CallFault.code : CallFault → Int
  | .unknownMethod _ | .notOffered => -32601
  | .notInitialized => -32002
  | .invalidRequest => -32600
  | .missingParams | .unexpectedParams _ | .misfit _ | .unknownCommand _ => -32602
  | .unreadable => -32700

/-- The wording of a fault. -/
def CallFault.message : CallFault → String
  | .unknownMethod _ | .notOffered => "Method not found"
  | .notInitialized => "Server not initialized"
  | .invalidRequest => "Invalid request"
  | .missingParams => "Missing params field"
  | .unexpectedParams v => "Unexpected params: " ++ v.sorted.render
  | .misfit m => m.message
  | .unknownCommand name => "Unknown command: " ++ name
  | .unreadable => "Parse error"

/-- What goes with the wording of a fault. -/
def CallFault.data? : CallFault → Option Value
  | .unknownMethod method => some (.string method)
  | _ => none

namespace Method

/-- The methods that mean something here. -/
def offered : List (String × Method) := [
  ("initialize", .greet),
  ("initialized", .greeted),
  ("shutdown", .shutdown),
  ("exit", .exit),
  ("textDocument/didSave", .documentSaved),
  ("workspace/didChangeWatchedFiles", .filesChanged),
  ("workspace/didChangeConfiguration", .settingsChanged),
  ("workspace/executeCommand", .executeCommand)]

/-- Requests about a position in a document. -/
def positionRequests : List String := [
  "textDocument/declaration", "textDocument/definition", "textDocument/typeDefinition",
  "textDocument/implementation", "textDocument/prepareCallHierarchy",
  "textDocument/prepareTypeHierarchy", "textDocument/documentHighlight", "textDocument/hover",
  "textDocument/moniker", "textDocument/completion", "textDocument/signatureHelp",
  "textDocument/prepareRename", "textDocument/linkedEditingRange"]

/-- Requests about a document. -/
def documentRequests : List String := [
  "textDocument/willSaveWaitUntil", "textDocument/references", "textDocument/documentLink",
  "textDocument/codeLens", "textDocument/foldingRange", "textDocument/selectionRange",
  "textDocument/documentSymbol", "textDocument/semanticTokens/full",
  "textDocument/semanticTokens/full/delta", "textDocument/semanticTokens/range",
  "textDocument/inlineValue", "textDocument/inlayHint", "textDocument/documentColor",
  "textDocument/colorPresentation", "textDocument/formatting", "textDocument/rangeFormatting",
  "textDocument/onTypeFormatting", "textDocument/rename", "textDocument/codeAction",
  "textDocument/diagnostic"]

/-- Requests about something else. -/
def otherRequests : List String := [
  "callHierarchy/incomingCalls", "callHierarchy/outgoingCalls", "typeHierarchy/supertypes",
  "typeHierarchy/subtypes", "documentLink/resolve", "codeLens/resolve", "inlayHint/resolve",
  "completionItem/resolve", "codeAction/resolve", "workspace/diagnostic", "workspace/symbol",
  "workspaceSymbol/resolve", "workspace/willCreateFiles", "workspace/willRenameFiles",
  "workspace/willDeleteFiles"]

/-- Notifications that are known but have no effect. -/
def otherNotifications : List String := [
  "$/cancelRequest", "textDocument/didOpen", "textDocument/didChange", "textDocument/willSave",
  "textDocument/didClose", "notebookDocument/didOpen", "notebookDocument/didChange",
  "notebookDocument/didSave", "notebookDocument/didClose",
  "workspace/didChangeWorkspaceFolders", "workspace/didCreateFiles",
  "workspace/didRenameFiles", "workspace/didDeleteFiles"]

/-- Every known method by its name. -/
def known : List (String × Method) :=
  offered
  ++ positionRequests.map (fun name => (name, .notOffered Params.documentSpotShape))
  ++ documentRequests.map (fun name => (name, .notOffered Params.someDocumentShape))
  ++ otherRequests.map (fun name => (name, .notOffered .any))
  ++ otherNotifications.map (fun name => (name, .noEffect))

/-- The method of a name. -/
def ofName? (name : String) : Option Method := known.lookup name

/-- Whether a method is a request. -/
def isRequest : Method → Bool
  | .greet | .shutdown | .executeCommand | .notOffered _ => true
  | .greeted | .exit | .documentSaved | .filesChanged | .settingsChanged | .noEffect => false

end Method

namespace Order

/-- What parameters say, once they are there. -/
def reading {α : Type} (read : Value → Except Misfit α) : Option Value → Except CallFault α
  | none => .error .missingParams
  | some v => (read v).mapError .misfit

/-- The order of a method with parameters. -/
def ofParams (params : Option Value) : Method → Except CallFault Order
  | .greet => (reading Params.greeting params).map .greet
  | .greeted => (reading Params.emptyShape.fit params).map fun _ => .greeted
  | .shutdown =>
    match params with
    | none => .ok .shutdown
    | some v => .error (.unexpectedParams v)
  | .documentSaved => (reading Params.savedDocument params).map .documentSaved
  | .filesChanged => (reading Params.changedDocuments params).map .filesChanged
  | .settingsChanged => (reading Params.changedSettings params).map .settingsChanged
  | .executeCommand => (reading Params.commandName params).map .executeCommand
  | .notOffered shape => (reading shape.fit params).map fun _ => .notOffered
  | .exit | .noEffect => .ok .noEffect

end Order

end DiagnosticRelay
