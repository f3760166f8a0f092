import DiagnosticRelay.Proofs.Glob.Names
import DiagnosticRelay.Proofs.Path.LastName
import DiagnosticRelay.Proofs.Server.Calls
import DiagnosticRelay.Proofs.Server.Pass

/-!
# Changes of configuration files

With the default glob, what counts of a changed file is the name at its end: directories in
front match whatever is before it, and taking off the workspace root leaves it where it is.
So a notice about changed files starts a run of the project if a configuration file of the
analyser is among them, wherever it lies, and nothing otherwise.

## Main definitions

* `Settings.configurationNames`, `Path.IsConfiguration`: the configuration files.
* `Path.IsWatchable`: a path that ends with a name as seen from the root.
* `Dialogue.executions`: what is executed in a course.

## Main results

* `Glob.watches_anywhere_iff`: names in any directory, as seen from a root.
* `Settings.watches_iff_of_default`: what the default glob watches.
* `Server.configuration_change_starts_run`: what a notice about changed files starts.
-/

namespace DiagnosticRelay

variable {root p : Path} {changed : List Path} {documents : List Url}

/-- A path that is not the root itself and does not end with a silent part. -/
def Path.IsWatchable (p root : Path) : Prop := ¬ Path.Same p root ∧ ¬ p.EndsSilently

instance (p root : Path) : Decidable (p.IsWatchable root) := inferInstanceAs (Decidable (_ ∧ _))

/-! ## Names as seen from a root -/

namespace Glob

/-- A text that can be the name at the end of a path. -/
def IsName (name : String) : Prop :=
  name ≠ "" ∧ Path.separator ∉ Octets.ofString name ∧
    Octets.ofString name ≠ [Path.dot, Path.dot]

instance (name : String) : Decidable (IsName name) := inferInstanceAs (Decidable (_ ∧ _ ∧ _))

/-- Names in any directory watch the paths that end with one of them, from whatever root
these are seen. -/
theorem watches_anywhere_iff {names : List String} (hsome : names ≠ [])
    (hnames : ∀ name ∈ names, IsName name) (hroot : root.isAbsolute = true)
    (hp : p.isAbsolute = true) (hwatchable : p.IsWatchable root) :
    (anywhere names).watches root p = true ↔
      ∃ name ∈ names, p.fileName? = some (Octets.ofString name) := by
  obtain ⟨hne, hend⟩ := hwatchable
  obtain ⟨part, hlast, hpart⟩ := Path.exists_getLast?_of_not_endsSilently hp hend
  have hseen := Path.getLast?_split_relativeTo (Path.components_ne_nil_of_isAbsolute hroot) hne
    hlast hpart
  rw [watches, matches_anywhere_iff hsome fun name hname => (hnames name hname).1]
  refine exists_congr fun name => and_congr_right fun hname => ?_
  obtain ⟨-, hseparator, hup⟩ := hnames name hname
  calc ((p.relativeTo root).octets = Octets.ofString name ∨
        ∃ upper, (p.relativeTo root).octets = upper ++ slash :: Octets.ofString name)
      ↔ (Path.split (p.relativeTo root).octets).getLast? = some (Octets.ofString name) :=
        (Path.getLast?_split_eq_some_iff hseparator).symm
    _ ↔ part = Octets.ofString name := by rw [hseen, Option.some_inj]
    _ ↔ p.fileName? = some (Octets.ofString name) :=
        (Path.fileName?_eq_some_iff hlast hpart hup).symm

end Glob

/-! ## The default glob -/

/-- The names of the configuration files of the analyser. -/
def Settings.configurationNames : List String :=
  ["phpstan.neon", "phpstan.neon.dist", "phpstan.dist.neon"]

/-- A path ends with the name of a configuration file. -/
def Path.IsConfiguration (p : Path) : Prop :=
  ∃ name ∈ Settings.configurationNames, p.fileName? = some (Octets.ofString name)

instance (p : Path) : Decidable p.IsConfiguration :=
  inferInstanceAs (Decidable (∃ name ∈ Settings.configurationNames, _))

namespace Settings

variable {settings : Settings}

theorem parse_watchGlob_default :
    Glob.parse ({} : Settings).watchGlob = .ok (.anywhere configurationNames) := by
  rfl

/-- The default glob watches the configuration files, from whatever root they are seen. -/
theorem watches_iff_of_default (hglob : settings.watchGlob = ({} : Settings).watchGlob)
    (hroot : root.isAbsolute = true)
    (hchanged : ∀ p ∈ changed, p.isAbsolute = true ∧ p.IsWatchable root) :
    settings.watches root changed = true ↔ ∃ p ∈ changed, p.IsConfiguration := by
  rw [watches, hglob, parse_watchGlob_default]
  simp only [List.any_eq_true]
  refine exists_congr fun p => and_congr_right fun hp => ?_
  obtain ⟨habsolute, hwatchable⟩ := hchanged p hp
  exact Glob.watches_anywhere_iff (by decide) (by decide +kernel) hroot habsolute hwatchable

end Settings

/-! ## Runs that are started -/

namespace Dialogue

/-- The command line and the directory of an execution. -/
def Step.execution? : Step → Option (String × Path)
  | .executed commandLine directory _ => some (commandLine, directory)
  | .told _ | .asked .. | .consulted .. => none

/-- What is executed in a course. -/
def executions (steps : List Step) : List (String × Path) := steps.filterMap Step.execution?

theorem executions_append (xs ys : List Step) :
    executions (xs ++ ys) = executions xs ++ executions ys := List.filterMap_append

theorem executions_executed_cons (commandLine : String) (directory : Path)
    (execution : Execution) (steps : List Step) :
    executions (.executed commandLine directory execution :: steps) =
      (commandLine, directory) :: executions steps := rfl

theorem executions_map_told (notices : List Notice) : executions (notices.map .told) = [] := by
  rw [executions, List.filterMap_map]
  exact List.filterMap_eq_nil_iff.mpr fun _ _ => rfl

end Dialogue

namespace Session

open Dialogue (Course Step executions)

variable {s t : Session} {steps : List Step} {token : Option UInt64} {text : String}

theorem executions_beginWork (h : Course (s.beginWork text) steps (t, token)) :
    executions steps = [] := by
  rcases course_beginWork h with ⟨-, rfl, -⟩ | ⟨reply, -, -, ⟨-, rfl, -⟩ | ⟨-, -, rfl⟩⟩ <;> rfl

/-- A run is one execution in the root. -/
theorem executions_analyse {target : Option Path} (h : Course (s.analyse target) steps t) :
    executions steps =
      [((Launch.of s.root s.settings s.store target).commandLine, s.root)] := by
  obtain ⟨opening, begun, token, execution, hopening, rfl, -⟩ := course_analyse h
  rw [Dialogue.executions_append, executions_beginWork hopening,
    Dialogue.executions_executed_cons, Dialogue.executions_map_told, List.nil_append]

end Session

/-- The local file of a URL has an absolute path. -/
theorem Url.isAbsolute_of_filePath? {u : Url} (h : u.filePath? = some p) :
    p.isAbsolute = true := by
  unfold filePath? at h
  split at h
  · cases h
  · cases h
  next segments hnil _ =>
    split_ifs at h
    obtain ⟨segment, rest, rfl⟩ := List.exists_cons_of_ne_nil hnil
    obtain rfl := Option.some.inj h
    rw [Path.isAbsolute, pathOfSegments, List.flatMap_cons, List.cons_append]
    split_ifs <;> rfl

/-! ## Notices about changed files -/

namespace Server

open Dialogue (Course Step executions)

variable {settings : Settings}

/-- With the default glob, changed files are watched if one of them is a configuration file.
So neither the root they are seen from counts, nor their order or how often they are named.
A notice about changed files then starts a run of the whole project, which is one execution
in the root, and otherwise nothing happens. -/
theorem configuration_change_starts_run
    (hglob : settings.watchGlob = ({} : Settings).watchGlob) :
    (∀ (root : Path) (changed : List Path), root.isAbsolute = true →
      (∀ p ∈ changed, p.isAbsolute = true ∧ p.IsWatchable root) →
      (settings.watches root changed = true ↔ ∃ p ∈ changed, p.IsConfiguration)) ∧
    (∀ (root root' : Path) (changed changed' : List Path),
      root.isAbsolute = true → root'.isAbsolute = true →
      (∀ p ∈ changed, p.isAbsolute = true ∧ p.IsWatchable root ∧ p.IsWatchable root') →
      (∀ p, p ∈ changed ↔ p ∈ changed') →
      settings.watches root changed = settings.watches root' changed') ∧
    ∀ (s t : Server) (session : Session) (documents : List Url) (steps : List Step)
      (result : Except CallFault Json.Value), s.session = some session →
      session.settings = settings → session.root.isAbsolute = true →
      (∀ p ∈ documents.filterMap Url.filePath?, p.IsWatchable session.root) →
      Course (s.carryOut (.filesChanged documents)) steps (t, result) →
      ((∃ p ∈ documents.filterMap Url.filePath?, p.IsConfiguration) →
        executions steps = [(settings.commandLine session.root none, session.root)] ∧
        ∃ after, t.session = some after ∧ Course (session.analyse none) steps after) ∧
      ((¬ ∃ p ∈ documents.filterMap Url.filePath?, p.IsConfiguration) → steps = [] ∧ t = s) := by
  refine ⟨fun root changed => Settings.watches_iff_of_default hglob, ?_, ?_⟩
  · intro root root' changed changed' hroot hroot' hchanged hsame
    rw [Bool.eq_iff_iff, Settings.watches_iff_of_default hglob hroot fun p hp =>
        ⟨(hchanged p hp).1, (hchanged p hp).2.1⟩,
      Settings.watches_iff_of_default hglob hroot' fun p hp =>
        ⟨(hchanged p ((hsame p).mpr hp)).1, (hchanged p ((hsame p).mpr hp)).2.2⟩]
    simp only [hsame]
  · intro s t session documents steps result hsession hsettings hroot hwatchable h
    have hlater : (Order.filesChanged documents).IsLater := trivial
    obtain ⟨after, hperformed, rfl⟩ := course_carryOut hsession hlater h
    have hdefault : session.settings.watchGlob = ({} : Settings).watchGlob := by
      rw [hsettings, hglob]
    have hwatches := Settings.watches_iff_of_default hdefault hroot fun p hp => by
      obtain ⟨u, -, hu⟩ := List.mem_filterMap.mp hp
      exact ⟨Url.isAbsolute_of_filePath? hu, hwatchable p hp⟩
    rw [Session.perform, Session.filesChanged] at hperformed
    constructor
    · intro hconfiguration
      rw [if_pos (hwatches.mpr hconfiguration)] at hperformed
      refine ⟨?_, after, rfl, hperformed⟩
      rw [Session.executions_analyse hperformed, ← hsettings]
      rfl
    · intro hnone
      rw [if_neg (mt hwatches.mp hnone)] at hperformed
      obtain ⟨rfl, rfl⟩ := Dialogue.course_pure_iff.mp hperformed
      exact ⟨rfl, by rw [← hsession]⟩

section ScatteredFiles

/-- A file of the workspace, in a directory with a line end in its name, and one elsewhere
whose name only ends like that of a configuration file. -/
def scatteredFiles : List Path :=
  [.ofString "/q/myphpstan.neon", .ofString "/p//src\n/./phpstan.dist.neon"]

/-- Files that are no configuration files, though one of their directories is called so. -/
def otherFiles : List Path := [.ofString "/q/myphpstan.neon", .ofString "/p/phpstan.neon/.."]

/-- A server that works in the workspace. -/
def workingServer : Server where
  here := .ofString "/"
  phase := .working
  session := some { root := .ofString "/p/", fileSettings := {}, abilities := {} }

/-- The notice about a configuration file in the workspace. -/
def changedDocument : Url where
  scheme := "file".toList
  authority := some {}
  path := .segments ["p".toList, "phpstan.neon".toList]

/-- An editor that knows nothing, on a machine without an analyser. -/
def bareHost : Dialogue.Host Unit where
  settings _ _ := {}
  reply _ _ := .refusal
  execute _ _ _ := (.error "not there", ())

/-- Files are found in the workspace and elsewhere, and a notice starts a run. -/
theorem configuration_change_starts_run_scatteredFiles :
    ({} : Settings).watches (.ofString "/p/") scatteredFiles = true ∧
      ({} : Settings).watches (.ofString "/p/") otherFiles = false ∧
      ({} : Settings).watches (.ofString "/q") (scatteredFiles.reverse ++ scatteredFiles) = true ∧
      ∃ steps t result, Course (workingServer.carryOut (.filesChanged [changedDocument])) steps
          (t, result) ∧
        executions steps = [("php vendor/bin/phpstan analyse --error-format=json --no-progress",
          .ofString "/p/")] := by
  obtain ⟨hwatches, hsame, hnotice⟩ := @configuration_change_starts_run {} rfl
  have hfound := (hwatches (.ofString "/p/") scatteredFiles (by decide +kernel)
    (by decide +kernel)).mpr (by decide +kernel)
  have hother := mt (hwatches (.ofString "/p/") otherFiles (by decide +kernel)
    (by decide +kernel)).mp (by decide +kernel)
  have helsewhere := hsame (.ofString "/p/") (.ofString "/q") scatteredFiles
    (scatteredFiles.reverse ++ scatteredFiles) (by decide +kernel) (by decide +kernel)
    (by decide +kernel) (by simp)
  have hcourse := Dialogue.course_transcript bareHost ()
    (workingServer.carryOut (.filesChanged [changedDocument]))
  have hrun := (hnotice workingServer _ _ [changedDocument] _ _ rfl rfl (by decide +kernel)
    (by decide +kernel) hcourse).1 (by decide +kernel)
  exact ⟨hfound, Bool.eq_false_iff.mpr hother, helsewhere ▸ hfound, _, _, _, hcourse, hrun.1⟩

end ScatteredFiles

end Server

end DiagnosticRelay
