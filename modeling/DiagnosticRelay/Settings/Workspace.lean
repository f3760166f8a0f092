import DiagnosticRelay.Host.FileTree
import DiagnosticRelay.Settings.File

/-!
# Settings of a workspace

A workspace may hold a settings file under one of four names. The first of them
that is there and can be read counts; without any the defaults stand.

## Main definitions

* `Settings.load`: the settings of a file.
* `Settings.ofWorkspace`: the settings of a workspace.
-/

namespace DiagnosticRelay

namespace Settings

/-- Why a settings file gives no settings. -/
inductive LoadFault where
  | unreadable (path : Path) (fault : FileFault)
  | malformed
  deriving Repr

/-- The settings of a file. -/
def load (files : FileTree) (here : FileNames) (p : Path) : Except LoadFault Settings :=
  match files.readText here p with
  | .error fault => .error (.unreadable p fault)
  | .ok text =>
    match ofYaml? text with
    | some settings => .ok settings
    | none => .error .malformed

/-- The names of settings files, the first one first. -/
def fileNames : List String :=
  [".phpstan-lsp.yaml", ".phpstan-lsp.yml", "phpstan-lsp.yaml", "phpstan-lsp.yml"]

/-- The settings of a file, if there are any. -/
def load? (files : FileTree) (here : FileNames) (p : Path) : Option Settings :=
  (load files here p).toOption

/-- The settings of a workspace. -/
def ofWorkspace (files : FileTree) (here : FileNames) (root : Path) : Settings :=
  (fileNames.findSome? fun name => load? files here (root.join (Path.ofString name))).getD {}

end Settings

/-- The wording of a settings file that cannot be read. -/
def Settings.unreadableMessage (p : Path) (fault : FileFault) : String :=
  "Failed to read config file " ++ p.display ++ ": " ++ fault.message

end DiagnosticRelay
