import DiagnosticRelay.Diagnostic.Published
import DiagnosticRelay.Settings.Basic

/-!
# What the server says

A notice tells the editor something; a query asks it for something and waits for
the reply. Each has a method and parameters in JSON.

## Main definitions

* `Notice`: what the editor is told.
* `Query`, `Reply`: what it is asked for, and what it says.
* `Message`: a notice or a query.
-/

namespace DiagnosticRelay

open Json (Value)

/-- How much a text matters. -/
inductive Weight where
  | error
  | warning
  | info
  deriving DecidableEq, Repr

/-- The number of a weight. -/
def Weight.number : Weight → Nat
  | .error => 1
  | .warning => 2
  | .info => 3

/-- What the editor is told. -/
inductive Notice where
  /-- The diagnostics of a document, which replace what it had. -/
  | publish (document : Url) (diagnostics : List Published)
  /-- A text for the user. -/
  | show (weight : Weight) (text : String)
  /-- A text for the log. -/
  | log (weight : Weight) (text : String)
  /-- The work of a token begins. -/
  | beginWork (token : UInt64) (text : String)
  /-- The work of a token ends. -/
  | endWork (token : UInt64) (text : String)
  deriving DecidableEq, Repr

/-- What the editor is asked for. -/
inductive Query where
  /-- The settings it has for the server. -/
  | settings
  /-- Progress of work under a token. -/
  | progress (token : UInt64)
  /-- Notifications about files that match a glob. -/
  | watch (glob : String)
  /-- The end of such notifications. -/
  | unwatch
  deriving DecidableEq, Repr

/-- What the editor says to a query. -/
inductive Reply where
  | result (value : Value)
  | refusal

/-- Whether a reply agrees to a query that asks for no value. -/
def Reply.isConsent : Reply → Bool
  | .result v => v.isNull
  | .refusal => false

/-- The first of the values that a reply gives, if it gives values. -/
def Reply.firstValue? : Reply → Option Value
  | .result (.array items) => items.head?
  | _ => none

/-- What the server says. -/
inductive Message where
  | notice (notice : Notice)
  | query (query : Query)
  deriving DecidableEq, Repr

/-! ## Methods -/

/-- The method of a notice. -/
def Notice.method : Notice → String
  | .publish .. => "textDocument/publishDiagnostics"
  | .show .. => "window/showMessage"
  | .log .. => "window/logMessage"
  | .beginWork .. | .endWork .. => "$/progress"

/-- The method of a query. -/
def Query.method : Query → String
  | .settings => "workspace/configuration"
  | .progress _ => "window/workDoneProgress/create"
  | .watch _ => "client/registerCapability"
  | .unwatch => "client/unregisterCapability"

/-- The method of a message. -/
def Message.method : Message → String
  | .notice n => n.method
  | .query q => q.method

/-! ## Parameters -/

/-- The name of a token. -/
def tokenName (token : UInt64) : String := "phpstan/" ++ toString token

/-- The title of all work. -/
def workTitle : String := "PHPStan"

/-- The name under which files are watched. -/
def watchName : String := "phpstan-watch-glob"

/-- The method of the notifications about watched files. -/
def watchMethod : String := "workspace/didChangeWatchedFiles"

/-- The parameters of a text. -/
def textParams (weight : Weight) (text : String) : Value :=
  .object [("type", .int weight.number), ("message", .string text)]

/-- The parameters of progress. -/
def progressParams (token : UInt64) (value : List (String × Value)) : Value :=
  .object [("token", .string (tokenName token)), ("value", .object value)]

/-- The parameters of a notice. -/
def Notice.params : Notice → Value
  | .publish document diagnostics =>
    .object [("uri", .string document.render),
      ("diagnostics", .array (diagnostics.map Published.toJson))]
  | .show weight text => textParams weight text
  | .log weight text => textParams weight text
  | .beginWork token text =>
    progressParams token [("kind", .string "begin"), ("title", .string workTitle),
      ("cancellable", .bool false), ("message", .string text)]
  | .endWork token text => progressParams token [("kind", .string "end"), ("message", .string text)]

/-- The watching of files, as it is registered and unregistered. -/
def watchMembers : List (String × Value) :=
  [("id", .string watchName), ("method", .string watchMethod)]

/-- What is registered to watch the files of a glob. -/
def watchOptions (glob : String) : Value :=
  .object [("watchers", .array [.object [("globPattern", .string glob)]])]

/-- The parameters of a query. -/
def Query.params : Query → Value
  | .settings =>
    .object [("items", .array [.object [("section", .string Settings.sectionName)]])]
  | .progress token => .object [("token", .string (tokenName token))]
  | .watch glob =>
    .object [("registrations",
      .array [.object (watchMembers ++ [("registerOptions", watchOptions glob)])])]
  | .unwatch => .object [("unregisterations", .array [.object watchMembers])]

/-- The parameters of a message. -/
def Message.params : Message → Value
  | .notice n => n.params
  | .query q => q.params

end DiagnosticRelay
