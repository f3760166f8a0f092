import DiagnosticRelay.Json.Misfit
import DiagnosticRelay.Settings.Basic

/-!
# Settings from an editor

An editor sends some of the settings as JSON: an object, or an array of the four
in their order. What it does not give, or gives as `null`, stays.

## Main definitions

* `Overlay`: the settings that are given.
* `Overlay.ofValue`: the overlay of a JSON value.
* `Settings.overlay`: settings under an overlay.
-/

namespace DiagnosticRelay

open Json (Value Misfit)

/-- Some of the settings. -/
structure Overlay where
  phpCommand : Option String := none
  command : Option String := none
  watchGlob : Option String := none
  dockerVolumePath : Option String := none
  deriving DecidableEq, Repr

namespace Overlay

/-- A setting as it is given. -/
def setting : Option Value → Except Misfit (Option String)
  | none => .ok none
  | some (.scalar .null) => .ok none
  | some (.scalar (.string s)) => .ok (some s)
  | some v => .error (.type v.found .text)

/-- The overlay of an array: the settings in the order of `Overlay`. -/
def ofItems (items : List Value) : Except Misfit Overlay := do
  let phpCommand ← setting items[0]?
  let command ← setting items[1]?
  let watchGlob ← setting items[2]?
  let dockerVolumePath ← setting items[3]?
  if 4 < items.length then throw (.tooLong items.length)
  return { phpCommand, command, watchGlob, dockerVolumePath }

/-- The overlay of an object, whose keys are looked at in alphabetical order. -/
def ofMembers (members : List (String × Value)) : Except Misfit Overlay := do
  let command ← setting (Value.lookup? "command" members)
  let dockerVolumePath ← setting (Value.lookup? "dockerVolumePath" members)
  let phpCommand ← setting (Value.lookup? "phpCommand" members)
  let watchGlob ← setting (Value.lookup? "watchGlob" members)
  return { phpCommand, command, watchGlob, dockerVolumePath }

/-- The record that an overlay is read from, as messages name it. -/
def recordName : String := "SettingsOverride"

/-- The overlay of a value; `null` gives nothing. -/
def ofValue : Value → Except Misfit Overlay
  | .scalar .null => .ok {}
  | .array items => ofItems items
  | .object members => ofMembers members
  | .scalar s => .error (.type (.scalar s) (.record recordName))

end Overlay

namespace Settings

/-- Settings under an overlay. -/
def overlay (s : Settings) (o : Overlay) : Settings where
  phpCommand := o.phpCommand.getD s.phpCommand
  command := o.command.getD s.command
  watchGlob := o.watchGlob.getD s.watchGlob
  dockerVolumePath := o.dockerVolumePath.getD s.dockerVolumePath

/-- Settings under the overlay of a value. -/
def withValue (s : Settings) (v : Value) : Except Misfit Settings :=
  (Overlay.ofValue v).map s.overlay

end Settings

end DiagnosticRelay
