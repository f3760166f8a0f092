import DiagnosticRelay.Proofs.Run.History
import DiagnosticRelay.Proofs.Server.Configuration
import DiagnosticRelay.Settings.Workspace

/-!
# Layers of settings

The settings in force have two layers: those of the workspace's files, found once when
the session begins, and over them what the editor gave last. An older value of the
editor never shows through, since every value is laid over the files' settings and not
over what was in force. A value that does not fit is shown as an error and changes
nothing.

## Main definitions

* `Settings.FoundIn`: the settings of the files of a workspace.
* `Order.editorValue?`: the value that the editor gives in a call.
* `Order.Accepts`: a call brings an overlay.
* `Session.GoesOn`: what the parts of a call do to settings, and the errors they show.

## Main results

* `Session.goesOn_perform`: one call.
* `Server.settings_layered`: all calls.
-/

namespace DiagnosticRelay

open Dialogue (Course Step)
open Json (Value)

/-! ## Settings of files -/

/-- The settings of the first file that gives any, or the defaults where none does. -/
inductive Settings.FoundIn (files : FileTree) (here : FileNames) (root : Path) :
    Settings → Prop where
  | file {earlier later : List String} {name : String} {settings : Settings}
    (names : Settings.fileNames = earlier ++ name :: later)
    (loads : Settings.load files here (root.join (.ofString name)) = .ok settings)
    (others : ∀ other ∈ earlier,
      ∃ fault, Settings.load files here (root.join (.ofString other)) = .error fault) :
    FoundIn files here root settings
  | defaults (none : ∀ name ∈ Settings.fileNames,
      ∃ fault, Settings.load files here (root.join (.ofString name)) = .error fault) :
    FoundIn files here root {}

theorem Settings.load?_eq_some_iff {files : FileTree} {here : FileNames} {p : Path}
    {settings : Settings} :
    load? files here p = some settings ↔ load files here p = .ok settings := by
  rw [load?]
  cases load files here p <;> simp [Except.toOption]

theorem Settings.load?_eq_none_iff {files : FileTree} {here : FileNames} {p : Path} :
    load? files here p = none ↔ ∃ fault, load files here p = .error fault := by
  rw [load?]
  cases load files here p <;> simp [Except.toOption]

theorem Settings.foundIn_ofWorkspace (files : FileTree) (here : FileNames) (root : Path) :
    FoundIn files here root (ofWorkspace files here root) := by
  rw [ofWorkspace]
  cases hfound : fileNames.findSome? fun name => load? files here (root.join (.ofString name)) with
  | none =>
    refine .defaults fun name hname => ?_
    exact load?_eq_none_iff.mp (List.findSome?_eq_none_iff.mp hfound name hname)
  | some settings =>
    obtain ⟨earlier, name, later, hnames, hload, hothers⟩ := List.findSome?_eq_some_iff.mp hfound
    exact .file hnames (load?_eq_some_iff.mp hload) fun other hother =>
      load?_eq_none_iff.mp (hothers other hother)

/-! ## Values of the editor -/

/-- What the editor says when it is asked for its settings. -/
def Dialogue.Step.settingsReply? : Step → Option Reply
  | .asked .settings reply => some reply
  | _ => none

/-- The first value of the editor's reply, if it can be asked for settings and replies with
values. -/
def Dialogue.pulled? (abilities : Abilities) (steps : List Step) : Option Value :=
  if abilities.configuration then (steps.findSome? Step.settingsReply?).bind Reply.firstValue?
  else none

/-- The value that the editor gives in a call. Along with a change of its settings it may
give one under the name of the section, even `null`; else it is asked. -/
def Order.editorValue? (abilities : Abilities) (steps : List Step) : Order → Option Value
  | .greeted => Dialogue.pulled? abilities steps
  | .settingsChanged given =>
    match given.member? Settings.sectionName with
    | some v => some v
    | none => Dialogue.pulled? abilities steps
  | _ => none

/-- In a call the editor gives a value that fits, with this overlay. -/
def Order.Accepts (abilities : Abilities) (call : Order × List Step) (o : Overlay) : Prop :=
  ∃ v, call.1.editorValue? abilities call.2 = some v ∧ Overlay.ofValue v = .ok o

/-- Settings of files under the overlay that was accepted last, if any was. -/
def Settings.IsLayered (fileSettings : Settings) (abilities : Abilities)
    (calls : List (Order × List Step)) (settings : Settings) : Prop :=
  (∃ call o, IsLast (fun call => ∃ o, Order.Accepts abilities call o) calls call ∧
    Order.Accepts abilities call o ∧ settings = fileSettings.overlay o) ∨
  ((∀ call ∈ calls, ¬ ∃ o, Order.Accepts abilities call o) ∧ settings = fileSettings)

/-! ## Errors -/

/-- The text of a notice that shows an error. -/
def Notice.error? : Notice → Option String
  | .show .error text => some text
  | _ => none

namespace Dialogue

/-- The error that is shown in a step. -/
def Step.error? : Step → Option String
  | .told n => n.error?
  | _ => none

/-- The message of the failure, if a run fails in a step. -/
def Step.failureMessage? : Step → Option String
  | .executed _ _ execution =>
    match execution.report with
    | .ok _ => none
    | .error failure => some failure.message
  | _ => none

/-- The errors that are shown, in order. -/
def errors (steps : List Step) : List String := steps.filterMap Step.error?

/-- The failures of runs, in order. -/
def failures (steps : List Step) : List String := steps.filterMap Step.failureMessage?

variable {xs ys : List Step}

@[simp] theorem errors_append : errors (xs ++ ys) = errors xs ++ errors ys :=
  List.filterMap_append

@[simp] theorem failures_append : failures (xs ++ ys) = failures xs ++ failures ys :=
  List.filterMap_append

@[simp] theorem errors_told (notices : List Notice) :
    errors (notices.map .told) = notices.filterMap Notice.error? := by
  rw [errors, List.filterMap_map]
  rfl

@[simp] theorem failures_told (notices : List Notice) : failures (notices.map .told) = [] := by
  rw [failures, List.filterMap_map, List.filterMap_eq_nil_iff]
  exact fun _ _ => rfl

end Dialogue

namespace Session

variable {s t u : Session} {steps xs ys : List Step} {channel : Channel} {remarks : List String}
  {order : Order}

/-- A session goes on. Its workspace, the settings of its files and what its editor can do
stay, the settings in force are on the given channel, and besides the given remarks only
failures of runs are shown as errors. -/
structure GoesOn (s : Session) (steps : List Step) (t : Session) (channel : Channel)
    (remarks : List String) : Prop where
  root : t.root = s.root
  fileSettings : t.fileSettings = s.fileSettings
  abilities : t.abilities = s.abilities
  channel : t.channel = channel
  errors : Dialogue.errors steps = remarks ++ Dialogue.failures steps

theorem goesOn_refl (s : Session) : s.GoesOn [] s s.channel [] := ⟨rfl, rfl, rfl, rfl, rfl⟩

theorem GoesOn.trans (h : s.GoesOn xs t channel remarks) (h' : t.GoesOn ys u t.channel []) :
    s.GoesOn (xs ++ ys) u channel remarks where
  root := h'.root.trans h.root
  fileSettings := h'.fileSettings.trans h.fileSettings
  abilities := h'.abilities.trans h.abilities
  channel := h'.channel.trans h.channel
  errors := by simp [h.errors, h'.errors]

/-- Steps that show no error and run nothing may come before. -/
theorem GoesOn.of_quiet (h : s.GoesOn ys t channel remarks) (herrors : Dialogue.errors xs = [])
    (hfailures : Dialogue.failures xs = []) : s.GoesOn (xs ++ ys) t channel remarks :=
  { h with errors := by simp [herrors, hfailures, h.errors] }

/-! ## Watching and runs -/

theorem goesOn_renewWatch (h : Course s.renewWatch steps t) : s.GoesOn steps t s.channel [] := by
  rcases course_renewWatch h with ⟨-, rfl, rfl⟩ | ⟨ending, reply, -, hended, rfl, rfl⟩
  · exact goesOn_refl _
  · obtain ⟨-, ⟨-, rfl⟩ | ⟨-, _, rfl⟩⟩ := course_endWatch hended <;> exact ⟨rfl, rfl, rfl, rfl, rfl⟩

theorem error?_of_mem_endNotices {token : Option UInt64} {text : String} {n : Notice}
    (h : n ∈ endNotices token text) : n.error? = none := by
  obtain ⟨_, -, rfl⟩ := List.mem_map.mp h
  rfl

/-- A run is told about with one error if it fails, and with none if it succeeds. -/
theorem errors_outcomeNotices (l : Launch) (execution : Execution) (store : Store)
    (token : Option UInt64) (commandLine : String) (directory : Path) :
    (outcomeNotices token (l.conclude execution store)).filterMap Notice.error? =
      Dialogue.failures [.executed commandLine directory execution] := by
  have hended (text : String) : (endNotices token text).filterMap Notice.error? = [] :=
    List.filterMap_eq_nil_iff.mpr fun _ => error?_of_mem_endNotices
  cases hreport : execution.report with
  | error failure =>
    rw [Launch.conclude_of_failure hreport, outcomeNotices, failureNotices, List.filterMap_append,
      hended]
    simp [Dialogue.failures, Step.failureMessage?, hreport, Notice.error?]
  | ok report =>
    have hpublished (q : Path) :
        (publication? (l.apply report store).1 q).bind Notice.error? = none := by
      rw [publication?]
      cases Url.ofFilePath? q <;> rfl
    have hwarned : (l.apply report store).2.generalErrors.filterMap
        (Notice.error? ∘ fun text => .show .warning (remark text)) = [] :=
      List.filterMap_eq_nil_iff.mpr fun _ _ => rfl
    rw [Launch.conclude_of_report hreport, outcomeNotices, summaryNotices, List.filterMap_append,
      List.filterMap_append, List.filterMap_filterMap, List.filterMap_map, hwarned,
      List.filterMap_cons_none rfl, hended]
    simp [Dialogue.failures, Step.failureMessage?, hreport, hpublished]

theorem goesOn_analyse {target : Option Path} (h : Course (s.analyse target) steps t) :
    s.GoesOn steps t s.channel [] := by
  obtain ⟨opening, begun, token, execution, hopening, rfl, rfl⟩ := course_analyse h
  have hbegun : s.GoesOn opening begun s.channel [] := by
    rcases course_beginWork hopening with
      ⟨-, rfl, rfl, -⟩ | ⟨reply, -, rfl, ⟨-, rfl, -⟩ | ⟨-, -, rfl⟩⟩ <;>
      exact ⟨rfl, rfl, rfl, rfl, rfl⟩
  refine hbegun.trans ⟨rfl, rfl, rfl, rfl, ?_⟩
  rw [← List.singleton_append, Dialogue.errors_append, Dialogue.failures_append,
    Dialogue.errors_told, Dialogue.failures_told, List.append_nil, List.nil_append]
  exact errors_outcomeNotices ..

/-! ## Values -/

/-- The channel once the editor has given a value, if it has. -/
def channelUnder (s : Session) : Option Value → Channel
  | none => s.channel
  | some v =>
    match Overlay.ofValue v with
    | .ok o => s.channel.replace (s.fileSettings.overlay o)
    | .error _ => s.channel

/-- The errors about a value, if the editor gives one: that it does not fit, or that the
glob that it brings is malformed. -/
def remarksOn (s : Session) : Option Value → List String
  | none => []
  | some v =>
    match Overlay.ofValue v with
    | .ok o => (globNotices (s.fileSettings.overlay o)).filterMap Notice.error?
    | .error m => [settingsRemark (Settings.misfitMessage m)]

theorem goesOn_adopt {settings : Settings} (h : Course (s.adopt settings) steps t) :
    s.GoesOn steps t (s.channel.replace settings)
      ((globNotices settings).filterMap Notice.error?) := by
  obtain ⟨rest, rfl, hrest⟩ := course_adopt h
  have hadopted : s.GoesOn ((globNotices settings).map .told)
      { s with channel := s.channel.replace settings } (s.channel.replace settings)
      ((globNotices settings).filterMap Notice.error?) :=
    ⟨rfl, rfl, rfl, rfl, by simp⟩
  refine hadopted.trans ?_
  rcases hrest with ⟨-, rfl, rfl⟩ | ⟨-, hrenewed⟩
  · exact goesOn_refl _
  · exact goesOn_renewWatch hrenewed

theorem goesOn_applyValue? {v : Option Value} (h : Course (s.applyValue? v) steps t) :
    s.GoesOn steps t (s.channelUnder v) (s.remarksOn v) := by
  rcases course_applyValue? h with
    ⟨rfl, rfl, rfl⟩ | ⟨w, rfl, ⟨o, hread, hadopted⟩ | ⟨m, hread, rfl, rfl⟩⟩
  · exact goesOn_refl _
  · simp only [channelUnder, remarksOn, hread]
    exact goesOn_adopt hadopted
  · simp only [channelUnder, remarksOn, hread]
    exact ⟨rfl, rfl, rfl, rfl, rfl⟩

/-- What the editor is asked for is what it gives in the call, and asking shows no error. -/
theorem pulled?_of_askValue {v : Option Value} (h : Course s.askValue xs v) :
    (∀ ys, Dialogue.pulled? s.abilities (xs ++ ys) = v) ∧
      Dialogue.errors xs = [] ∧ Dialogue.failures xs = [] := by
  rcases course_askValue h with ⟨hunable, rfl, rfl⟩ | ⟨reply, hable, rfl, rfl⟩
  · exact ⟨fun ys => by simp [Dialogue.pulled?, hunable], rfl, rfl⟩
  · refine ⟨fun ys => ?_, rfl, rfl⟩
    rw [Dialogue.pulled?, if_pos hable]
    rfl

/-! ## Calls -/

/-- Once greeted, the editor is asked for its settings, and a run on the project follows. -/
theorem goesOn_start (h : Course s.start steps t) :
    s.GoesOn steps t (s.channelUnder (Dialogue.pulled? s.abilities steps))
      (s.remarksOn (Dialogue.pulled? s.abilities steps)) := by
  obtain ⟨asked, given, renewed, ran, v, configured, watching, rfl, hasked, hgiven, hrenewed, hran⟩ :=
    course_start h
  obtain ⟨hvalue, herrors, hfailures⟩ := pulled?_of_askValue hasked
  have hconfigured := (goesOn_applyValue? hgiven).trans (goesOn_renewWatch hrenewed)
  have hdone := (hconfigured.trans (goesOn_analyse hran)).of_quiet herrors hfailures
  rw [List.append_assoc, List.append_assoc, hvalue]
  rwa [List.append_assoc] at hdone

/-- The editor gives its settings along with their change, or it is asked for them. -/
theorem goesOn_settingsChanged {given : Value} (h : Course (s.settingsChanged given) steps t) :
    s.GoesOn steps t
      (s.channelUnder ((Order.settingsChanged given).editorValue? s.abilities steps))
      (s.remarksOn ((Order.settingsChanged given).editorValue? s.abilities steps)) := by
  obtain ⟨asked, rest, v, rfl, hrest, hasked⟩ := course_settingsChanged h
  rcases hasked with ⟨w, hgiven, rfl, rfl⟩ | ⟨hgiven, hasked⟩
  · simp only [Order.editorValue?, hgiven]
    exact goesOn_applyValue? hrest
  · obtain ⟨hvalue, herrors, hfailures⟩ := pulled?_of_askValue hasked
    simp only [Order.editorValue?, hgiven, hvalue]
    exact (goesOn_applyValue? hrest).of_quiet herrors hfailures

theorem editorValue?_of_ne (hgreeted : order ≠ .greeted)
    (hsettings : ∀ given, order ≠ .settingsChanged given) (abilities : Abilities)
    (steps : List Step) : order.editorValue? abilities steps = none := by
  cases order with
  | greeted => exact absurd rfl hgreeted
  | settingsChanged given => exact absurd rfl (hsettings given)
  | _ => rfl

/-- A call puts in force what the editor gives in it over the settings of the files, and
besides the errors about that only failures of runs are shown. -/
theorem goesOn_perform (horder : order.IsLater) (h : Course (s.perform order) steps t) :
    s.GoesOn steps t (s.channelUnder (order.editorValue? s.abilities steps))
      (s.remarksOn (order.editorValue? s.abilities steps)) := by
  rcases course_perform horder h with ⟨rfl, h⟩ | ⟨given, rfl, h⟩ | ⟨hgreeted, hsettings, h⟩
  · exact goesOn_start h
  · exact goesOn_settingsChanged h
  · rw [editorValue?_of_ne hgreeted hsettings]
    rcases h with ⟨target, h⟩ | ⟨rfl, rfl⟩
    · exact goesOn_analyse h
    · exact goesOn_refl _

/-- The settings in force after a call. -/
theorem current_channelUnder {v : Option Value} {o : Overlay}
    (h : ∃ w, v = some w ∧ Overlay.ofValue w = .ok o) :
    (s.channelUnder v).current = s.fileSettings.overlay o := by
  obtain ⟨w, rfl, hread⟩ := h
  simp [channelUnder, hread]

theorem channelUnder_of_not {v : Option Value}
    (h : ¬ ∃ o w, v = some w ∧ Overlay.ofValue w = .ok o) : s.channelUnder v = s.channel := by
  cases v with
  | none => rfl
  | some w =>
    cases hread : Overlay.ofValue w with
    | ok o => exact absurd ⟨o, w, rfl, hread⟩ h
    | error m => simp [channelUnder, hread]

/-- A call keeps settings layered. -/
theorem isLayered_perform {calls : List (Order × List Step)} (horder : order.IsLater)
    (h : Course (s.perform order) steps t)
    (hlayered : s.fileSettings.IsLayered s.abilities calls s.settings) :
    t.fileSettings.IsLayered t.abilities (calls ++ [(order, steps)]) t.settings := by
  have hgoes := goesOn_perform horder h
  rw [hgoes.fileSettings, hgoes.abilities, settings, hgoes.channel]
  by_cases haccepts : ∃ o, Order.Accepts s.abilities (order, steps) o
  · obtain ⟨o, ho⟩ := haccepts
    exact .inl ⟨_, o, isLast_concat ⟨o, ho⟩, ho, current_channelUnder ho⟩
  · -- The value of the call, if there is one, leaves what was in force.
    rw [channelUnder_of_not haccepts]
    rcases hlayered with ⟨call, o, hlast, ho, hsettings⟩ | ⟨hnone, hsettings⟩
    · exact .inl ⟨call, o, hlast.concat haccepts, ho, hsettings⟩
    · exact .inr ⟨forall_not_concat hnone haccepts, hsettings⟩

end Session

namespace Server

/-- A server meets its editor and carries out calls, none of which overlap. At every moment
between calls the settings in force are those that were found in the workspace's files,
under the value that the editor gave last among those that fit. A call in which it gives
one that does not fit shows one error about it, besides those of runs that fail, and does
not touch the channel that tells of changes. -/
theorem settings_layered {here : Path} {files : FileTree} {directory : FileNames} {root : Path}
    {greeting : Greeting} {met s : Server} {calls : List (Order × List Step)}
    {answer : Except CallFault Value}
    (hmet : Course (carryOut { here } (.greet greeting))
      [.consulted root (Settings.ofWorkspace files directory root)] (met, answer))
    (hcalls : met.Handles calls s) :
    let fileSettings := Settings.ofWorkspace files directory root
    Settings.FoundIn files directory root fileSettings ∧ ∃ session, s.session = some session ∧
      fileSettings.IsLayered greeting.abilities calls session.settings ∧
      ∀ order steps t result, order.IsLater → Course (s.carryOut order) steps (t, result) →
        ∀ v m, order.editorValue? greeting.abilities steps = some v → Overlay.ofValue v = .error m →
          ∃ after, t.session = some after ∧ after.channel = session.channel ∧
            Dialogue.errors steps = Session.settingsRemark (Settings.misfitMessage m) ::
              Dialogue.failures steps := by
  intro fileSettings
  obtain ⟨_, hsteps, hopened⟩ := course_meet hmet
  simp only [List.cons.injEq, Step.consulted.injEq, and_true] at hsteps
  obtain ⟨hroot, rfl⟩ := hsteps
  -- What holds of the session when it begins, and after every call.
  obtain ⟨session, hsession, hfiles, habilities, hlayered⟩ :=
    hcalls.invariant (P := fun calls session => session.fileSettings = fileSettings ∧
      session.abilities = greeting.abilities ∧
      fileSettings.IsLayered greeting.abilities calls session.settings) hopened
      ⟨rfl, rfl, .inr ⟨by simp, Channel.current_replace ..⟩⟩ (by
        rintro calls before order steps after ⟨hfiles, habilities, hlayered⟩ horder hcourse
        have hgoes := Session.goesOn_perform horder hcourse
        rw [← hfiles, ← habilities] at hlayered
        refine ⟨hgoes.fileSettings.trans hfiles, hgoes.abilities.trans habilities, ?_⟩
        rw [← hfiles, ← habilities, ← hgoes.fileSettings, ← hgoes.abilities]
        exact Session.isLayered_perform horder hcourse hlayered)
  refine ⟨Settings.foundIn_ofWorkspace .., session, hsession, hlayered, ?_⟩
  intro order steps t result horder hcourse v m hvalue hmisfit
  obtain ⟨after, hperformed, rfl⟩ := course_carryOut hsession horder hcourse
  have hgoes := Session.goesOn_perform horder hperformed
  rw [habilities, hvalue] at hgoes
  have hchannel := hgoes.channel
  have herrors := hgoes.errors
  simp only [Session.channelUnder, Session.remarksOn, hmisfit] at hchannel herrors
  exact ⟨after, rfl, hchannel, herrors⟩

section NewerValue

/-- A workspace with a settings file. -/
def settingsTree : FileTree :=
  ({} : FileTree).write [[0x70], ".phpstan-lsp.yaml".toUTF8.toList]
    (.file "phpstan:\n  phpCommand: php8".toUTF8.toList)

/-- An editor that can be asked for its settings, and its workspace. -/
def askedGreeting : Greeting where
  folders := []
  rootUrl := none
  rootPath := some "/p"
  abilities := { configuration := true }

/-- An editor that gives a command when it is asked, and refuses everything else. -/
def commandEditor : Dialogue.Host Unit where
  settings _ root := Settings.ofWorkspace settingsTree [] root
  reply _
    | .settings => .result (.array [.object [("command", .string "stan")]])
    | _ => .refusal
  execute _ _ _ := (.error "not there", ())

/-- The server of the workspace before it has met its editor. -/
def freshServer : Server := { here := .ofString "/" }

/-- What an order makes of a server with that editor. -/
def afterOrder (s : Server) (order : Order) : Server :=
  ((s.carryOut order).converse commandEditor ()).result.1

/-- Settings with a volume and nothing else. -/
def volumeOnly : Value := .object [("phpstan", .object [("dockerVolumePath", .string "/app")])]

/-- A number in the place of settings. -/
def noSettings : Value := .object [("phpstan", .int 1)]

/-- The server when the editor has given a command, then a volume, then a number. -/
def configuredServer : Server :=
  [Order.greet askedGreeting, .greeted, .settingsChanged volumeOnly,
    .settingsChanged noSettings].foldl afterOrder freshServer

theorem Handles.concat_afterOrder {s t : Server} {calls : List (Order × List Step)}
    (h : s.Handles calls t) (order : Order) (horder : order.IsLater) :
    ∃ steps, s.Handles (calls ++ [(order, steps)]) (t.afterOrder order) := by
  obtain ⟨steps, hcourse, -⟩ := Dialogue.exists_course commandEditor () (t.carryOut order)
  exact ⟨steps, h.concat horder hcourse⟩

/-- The settings are those of the file under the volume. Nothing is left of the command. -/
theorem settings_layered_configuredServer :
    ∃ (met : Server) (calls : List (Order × List Step)) (session : Session),
      met.Handles calls configuredServer ∧
      configuredServer.session = some session ∧
      session.settings = { phpCommand := "php8", dockerVolumePath := "/app" } ∧
      Settings.IsLayered { phpCommand := "php8" } { configuration := true } calls
        session.settings := by
  have hfile : Settings.ofWorkspace settingsTree [] (.ofString "/p") =
      { phpCommand := "php8" } := by decide +kernel
  have hmet : Course (freshServer.carryOut (.greet askedGreeting))
      [.consulted (.ofString "/p") (Settings.ofWorkspace settingsTree [] (.ofString "/p"))]
      (freshServer.afterOrder (.greet askedGreeting), .ok introduction) :=
    .consult _ (.done _)
  obtain ⟨_, hfirst⟩ := Handles.nil.concat_afterOrder .greeted trivial
  obtain ⟨_, hsecond⟩ := hfirst.concat_afterOrder (.settingsChanged volumeOnly) trivial
  obtain ⟨_, hcalls⟩ := hsecond.concat_afterOrder (.settingsChanged noSettings) trivial
  obtain ⟨-, session, hsession, hlayered, -⟩ := settings_layered hmet hcalls
  have hsettings : configuredServer.session.map (·.settings) =
      some { phpCommand := "php8", dockerVolumePath := "/app" } := by decide +kernel
  change configuredServer.session = some session at hsession
  rw [hsession, Option.map_some] at hsettings
  rw [hfile] at hlayered
  exact ⟨_, _, session, hcalls, hsession, Option.some.inj hsettings, hlayered⟩

end NewerValue

end Server

end DiagnosticRelay
