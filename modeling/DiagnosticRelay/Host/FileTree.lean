import DiagnosticRelay.Path.Basic

/-!
# File trees

A finite tree of files and directories. A path is followed part by part: every
part but the last has to be a directory, `..` leads back up, and what is not
there is not found.

## Main definitions

* `FileTree`: files and directories by the names that lead to them.
* `FileTree.follow`: where a path leads.
* `FileTree.read`, `FileTree.readText`: the content of a file.
-/

namespace DiagnosticRelay

/-- What a name in a directory stands for. -/
inductive FileEntry where
  | directory
  | file (content : Octets)
  /-- A program of the system, by its name. -/
  | program (name : String)
  deriving DecidableEq, Repr

/-- Why a file cannot be used. -/
inductive FileFault where
  | notFound
  | denied
  | notDirectory
  | isDirectory
  | notText
  deriving DecidableEq, Repr

/-- The wording of the system. -/
def FileFault.systemText : FileFault → String
  | .notFound => "No such file or directory"
  | .denied => "Permission denied"
  | .notDirectory => "Not a directory"
  | .isDirectory => "Is a directory"
  | .notText => "stream did not contain valid UTF-8"

/-- The number of the system. -/
def FileFault.number? : FileFault → Option Nat
  | .notFound => some 2
  | .denied => some 13
  | .notDirectory => some 20
  | .isDirectory => some 21
  | .notText => none

/-- The wording of a fault, with the number of the system. -/
def FileFault.message (f : FileFault) : String :=
  match f.number? with
  | some n => f.systemText ++ " (os error " ++ toString n ++ ")"
  | none => f.systemText

/-- The names that lead from the root to a file. -/
abbrev FileNames := List Octets

/-- Files and directories by their names. The root is a directory. -/
structure FileTree where
  entries : List (FileNames × FileEntry) := []
  deriving Repr

namespace FileTree

/-- The entry of names. -/
def entry? (t : FileTree) (names : FileNames) : Option FileEntry :=
  match names with
  | [] => some .directory
  | names => (t.entries.find? (·.1 == names)).map (·.2)

/-- The tree without an entry and what is below it. -/
def erase (t : FileTree) (names : FileNames) : FileTree :=
  ⟨t.entries.filter fun e => !names.isPrefixOf e.1⟩

/-- The tree with an entry. -/
def put (t : FileTree) (names : FileNames) (entry : FileEntry) : FileTree :=
  ⟨(names, entry) :: t.entries.filter fun e => e.1 != names⟩

/-- The tree with a directory and those above it, those given first being above
all of them. -/
def makeDirectories (t : FileTree) (above : FileNames) : FileNames → FileTree
  | [] => t
  | name :: names =>
    let here := above ++ [name]
    let t := if (t.entry? here).isSome then t else t.put here .directory
    t.makeDirectories here names

/-- The tree with an entry and the directories above it. -/
def write (t : FileTree) (names : FileNames) (entry : FileEntry) : FileTree :=
  (t.makeDirectories [] names.dropLast).put names entry

/-- Follows the parts of a path. -/
def followParts (t : FileTree) (here : FileNames) : List Octets → Except FileFault FileNames
  | [] => .ok here
  | part :: parts =>
    match t.entry? here with
    | none => .error .notFound
    | some .directory =>
      if Path.isSilent part then t.followParts here parts
      else if part = [Path.dot, Path.dot] then t.followParts here.dropLast parts
      else if (t.entry? (here ++ [part])).isSome then t.followParts (here ++ [part]) parts
      else .error .notFound
    | some _ => .error .notDirectory

/-- Where a path leads from a directory. An empty path leads nowhere. -/
def follow (t : FileTree) (here : FileNames) (p : Path) : Except FileFault FileNames :=
  if p.octets = [] then .error .notFound
  else t.followParts (if p.isAbsolute then [] else here) (Path.split p.octets)

/-- Whether there is anything at a path. -/
def contains (t : FileTree) (here : FileNames) (p : Path) : Bool :=
  match t.follow here p with
  | .ok names => (t.entry? names).isSome
  | .error _ => false

/-- The directory a path leads to. -/
def directory (t : FileTree) (here : FileNames) (p : Path) : Except FileFault FileNames := do
  let names ← t.follow here p
  match t.entry? names with
  | some .directory => return names
  | some _ => throw .notDirectory
  | none => throw .notFound

/-- The content of the file a path leads to. -/
def read (t : FileTree) (here : FileNames) (p : Path) : Except FileFault Octets := do
  match t.entry? (← t.follow here p) with
  | some (.file content) => return content
  | some .directory => throw .isDirectory
  | some (.program _) => return []
  | none => throw .notFound

/-- The content of a file that holds text. -/
def readText (t : FileTree) (here : FileNames) (p : Path) : Except FileFault String := do
  match (← t.read here p).toString? with
  | some text => return text
  | none => throw .notText

/-- The names of an absolute path, as its components give them. -/
def namesOf (p : Path) : FileNames :=
  p.components.filterMap fun c =>
    match c with
    | .name octets => some octets
    | .parent => some [Path.dot, Path.dot]
    | _ => none

/-- The absolute path of names. -/
def pathOf (names : FileNames) : Path := ⟨Path.separator :: Path.unsplit names⟩

end FileTree

end DiagnosticRelay
