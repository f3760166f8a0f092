import DiagnosticRelay.Settings.Overlay
import DiagnosticRelay.Yaml.Document

/-!
# Settings files

A settings file is a YAML mapping whose section holds the settings. What it does
not give keeps its default. Keys that mean nothing here are passed over, but a
known one may stand only once.

## Main definitions

* `Settings.ofYaml?`: the settings of a text.
-/

namespace DiagnosticRelay

open Yaml (Tree Document)

namespace Settings

/-- The entries of a mapping. Where nothing is written there are none. -/
def entries? (d : Document) (t : Tree) : Option (List (Tree × Tree)) :=
  match d.follow t with
  | some (.mapping entries) => some entries
  | some (.scalar true "") => some []
  | _ => none

/-- The text of a scalar. -/
def scalar? (d : Document) (t : Tree) : Option String :=
  match d.follow t with
  | some (.scalar _ text) => some text
  | _ => none

/-- The entries by their keys, which have to be scalars. -/
def keyed? (d : Document) (entries : List (Tree × Tree)) : Option (List (String × Tree)) :=
  entries.mapM fun entry => (scalar? d entry.1).map fun key => (key, entry.2)

/-- The value of a key, if any; it may stand only once. -/
def once? (key : String) (entries : List (String × Tree)) : Option (Option Tree) :=
  match entries.filter (·.1 == key) with
  | [] => some none
  | [entry] => some (some entry.2)
  | _ => none

/-- A setting of a section. -/
def setting? (d : Document) (key : String) (entries : List (String × Tree)) :
    Option (Option String) := do
  match ← once? key entries with
  | none => return none
  | some t => return some (← scalar? d t)

/-- The settings of a section. -/
def ofSection? (d : Document) (section_ : Tree) : Option Settings := do
  let entries ← keyed? d (← entries? d section_)
  let given : Overlay := {
    phpCommand := ← setting? d "phpCommand" entries
    command := ← setting? d "command" entries
    watchGlob := ← setting? d "watchGlob" entries
    dockerVolumePath := ← setting? d "dockerVolumePath" entries }
  return ({} : Settings).overlay given

/-- The settings of the text of a file. -/
def ofYaml? (text : String) : Option Settings := do
  let d ← Document.ofText? text
  let entries ← keyed? d (← entries? d d.root)
  match ← once? sectionName entries with
  | none => return {}
  | some section_ => ofSection? d section_

end Settings

end DiagnosticRelay
