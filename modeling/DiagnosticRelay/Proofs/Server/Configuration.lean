import DiagnosticRelay.Proofs.Server.Calls
import DiagnosticRelay.Proofs.Server.Pass
import DiagnosticRelay.Proofs.Settings.Channel
import Mathlib.Tactic.SplitIfs

/-!
# Settings that take effect

A call makes settings take effect, runs the analyser, does both in this order, or does
nothing. While settings take effect the editor hears of faults in them, and is asked for
its settings and about files to watch; only the settings in force and the watching of
files change.

## Main definitions

* `Session.Configures`: settings take effect.

## Main results

* `Session.course_endWatch`, `Session.course_renewWatch`: files to watch.
* `Session.course_askValue`, `Session.course_adopt`, `Session.course_applyValue?`: settings of
  the editor.
* `Session.course_start`, `Session.course_settingsChanged`, `Session.course_perform`: what a
  call is made of.
* `Session.configures_settingsChanged`: new settings change nothing else.
-/

namespace DiagnosticRelay

/-- Whether a step is about settings: a text about them, or a question that they bring. -/
def Dialogue.Step.isAboutSettings : Step → Bool
  | .told (.show ..) => true
  | .asked .settings _ | .asked (.watch _) _ | .asked .unwatch _ => true
  | _ => false

namespace Session

open Dialogue (Course Step)
open Json (Value)

variable {s t u : Session} {steps xs ys : List Step} {order : Order}

/-! ## Files to watch -/

/-- The editor is asked to end the watching of files exactly if there is any. -/
theorem course_endWatch (h : Course s.endWatch steps t) :
    t = { s with isWatching := false } ∧
      (s.isWatching = false ∧ steps = [] ∨
        s.isWatching = true ∧ ∃ reply, steps = [.asked .unwatch reply]) := by
  rw [endWatch] at h
  cases hwatching : s.isWatching with
  | false =>
    simp only [hwatching, Bool.false_eq_true, if_false] at h
    obtain ⟨rfl, rfl⟩ := Dialogue.course_pure_iff.mp h
    exact ⟨rfl, .inl ⟨rfl, rfl⟩⟩
  | true =>
    simp only [hwatching, if_true] at h
    obtain ⟨reply, hasked, rfl⟩ := Dialogue.course_map_iff.mp h
    obtain rfl := Dialogue.course_asking_iff.mp hasked
    exact ⟨rfl, .inr ⟨rfl, reply, rfl⟩⟩

/-- An editor that can watch files is asked to watch the glob in force, after the watching
of others has ended. -/
theorem course_renewWatch (h : Course s.renewWatch steps t) :
    (s.abilities.watching = false ∧ steps = [] ∧ t = s) ∨
      ∃ ending reply, s.abilities.watching = true ∧
        Course s.endWatch ending { s with isWatching := false } ∧
        steps = ending ++ [.asked (.watch s.settings.watchGlob) reply] ∧
        t = { s with isWatching := reply.isConsent } := by
  rw [renewWatch] at h
  cases hability : s.abilities.watching with
  | false =>
    simp only [hability, Bool.not_false, if_true] at h
    obtain ⟨rfl, rfl⟩ := Dialogue.course_pure_iff.mp h
    exact .inl ⟨rfl, rfl, rfl⟩
  | true =>
    simp only [hability, Bool.not_true, Bool.false_eq_true, if_false] at h
    obtain ⟨ending, asked, ended, rfl, hended, hrest⟩ := Dialogue.course_bind_iff.mp h
    obtain ⟨reply, hasked, rfl⟩ := Dialogue.course_map_iff.mp hrest
    obtain rfl := Dialogue.course_asking_iff.mp hasked
    obtain ⟨rfl, -⟩ := course_endWatch hended
    exact .inr ⟨ending, reply, rfl, hended, rfl, rfl⟩

/-! ## Settings of the editor -/

/-- An editor that can be asked for its settings is asked for them. -/
theorem course_askValue {v : Option Value} (h : Course s.askValue steps v) :
    (s.abilities.configuration = false ∧ steps = [] ∧ v = none) ∨
      ∃ reply, s.abilities.configuration = true ∧ steps = [.asked .settings reply] ∧
        v = reply.firstValue? := by
  rw [askValue] at h
  cases hability : s.abilities.configuration with
  | false =>
    simp only [hability, Bool.not_false, if_true] at h
    obtain ⟨rfl, rfl⟩ := Dialogue.course_pure_iff.mp h
    exact .inl ⟨rfl, rfl, rfl⟩
  | true =>
    simp only [hability, Bool.not_true, Bool.false_eq_true, if_false] at h
    obtain ⟨reply, hasked, rfl⟩ := Dialogue.course_map_iff.mp h
    obtain rfl := Dialogue.course_asking_iff.mp hasked
    exact .inr ⟨reply, rfl, rfl, rfl⟩

/-- The watched files follow after settings have taken effect, if these bring another
glob. -/
theorem course_adopt {settings : Settings} (h : Course (s.adopt settings) steps t) :
    ∃ rest, steps = (globNotices settings).map .told ++ rest ∧
      ((settings.watchGlob = s.settings.watchGlob ∧ rest = [] ∧
          t = { s with channel := s.channel.replace settings }) ∨
        (settings.watchGlob ≠ s.settings.watchGlob ∧
          Course (renewWatch { s with channel := s.channel.replace settings }) rest t)) := by
  obtain ⟨told, rest, _, rfl, htold, hrest⟩ := Dialogue.course_bind_iff.mp h
  rw [Dialogue.course_tellAll_iff.mp htold]
  refine ⟨rest, rfl, ?_⟩
  split_ifs at hrest with hglob
  · obtain ⟨rfl, rfl⟩ := Dialogue.course_pure_iff.mp hrest
    exact .inl ⟨hglob, rfl, rfl⟩
  · exact .inr ⟨hglob, hrest⟩

/-- A value takes effect over the settings of the files, or an error about it is shown. -/
theorem course_applyValue? {v : Option Value} (h : Course (s.applyValue? v) steps t) :
    (v = none ∧ steps = [] ∧ t = s) ∨ ∃ w, v = some w ∧
      ((∃ o, Overlay.ofValue w = .ok o ∧ Course (s.adopt (s.fileSettings.overlay o)) steps t) ∨
        ∃ m, Overlay.ofValue w = .error m ∧ t = s ∧
          steps = [.told (.show .error (settingsRemark (Settings.misfitMessage m)))]) := by
  cases v with
  | none => exact .inl ⟨rfl, Dialogue.course_pure_iff.mp h⟩
  | some w =>
    refine .inr ⟨w, rfl, ?_⟩
    rw [applyValue?, applyValue, Settings.withValue] at h
    cases hread : Overlay.ofValue w with
    | ok o =>
      rw [hread] at h
      exact .inl ⟨o, rfl, h⟩
    | error m =>
      rw [hread] at h
      obtain ⟨_, htold, rfl⟩ := Dialogue.course_map_iff.mp h
      exact .inr ⟨m, rfl, rfl, Dialogue.course_telling_iff.mp htold⟩

/-! ## Calls -/

/-- Once greeted, the editor is asked for its settings, these take effect, it is asked to
watch files, and a run on the project follows. -/
theorem course_start (h : Course s.start steps t) :
    ∃ asked given renewed ran v configured watching,
      steps = asked ++ given ++ renewed ++ ran ∧ Course s.askValue asked v ∧
      Course (s.applyValue? v) given configured ∧
      Course configured.renewWatch renewed watching ∧ Course (watching.analyse none) ran t := by
  obtain ⟨asked, _, v, rfl, hasked, hrest⟩ := Dialogue.course_bind_iff.mp h
  obtain ⟨given, _, configured, rfl, hgiven, hrest⟩ := Dialogue.course_bind_iff.mp hrest
  obtain ⟨renewed, ran, watching, rfl, hrenewed, hran⟩ := Dialogue.course_bind_iff.mp hrest
  exact ⟨asked, given, renewed, ran, v, configured, watching, by simp only [List.append_assoc],
    hasked, hgiven, hrenewed, hran⟩

/-- The editor gives its settings along with their change, or it is asked for them. -/
theorem course_settingsChanged {given : Value} (h : Course (s.settingsChanged given) steps t) :
    ∃ asked rest v, steps = asked ++ rest ∧ Course (s.applyValue? v) rest t ∧
      ((∃ w, given.member? Settings.sectionName = some w ∧ asked = [] ∧ v = some w) ∨
        given.member? Settings.sectionName = none ∧ Course s.askValue asked v) := by
  rw [settingsChanged] at h
  cases hgiven : given.member? Settings.sectionName with
  | some w =>
    rw [hgiven] at h
    exact ⟨[], steps, some w, rfl, h, .inl ⟨w, rfl, rfl, rfl⟩⟩
  | none =>
    rw [hgiven] at h
    obtain ⟨asked, rest, v, rfl, hasked, hrest⟩ := Dialogue.course_bind_iff.mp h
    exact ⟨asked, rest, v, rfl, hrest, .inr ⟨rfl, hasked⟩⟩

/-- A call that neither starts the session nor brings settings is a run, or does nothing. -/
theorem course_perform (horder : order.IsLater) (h : Course (s.perform order) steps t) :
    (order = .greeted ∧ Course s.start steps t) ∨
      (∃ given, order = .settingsChanged given ∧ Course (s.settingsChanged given) steps t) ∨
      (order ≠ .greeted ∧ (∀ given, order ≠ .settingsChanged given) ∧
        ((∃ target, Course (s.analyse target) steps t) ∨ steps = [] ∧ t = s)) := by
  cases order with
  | greet greeting => exact horder.elim
  | greeted => exact .inl ⟨rfl, h⟩
  | settingsChanged given => exact .inr (.inl ⟨given, rfl, h⟩)
  | documentSaved document =>
    refine .inr (.inr ⟨by simp, by simp, ?_⟩)
    cases document with
    | none => exact .inr (Dialogue.course_pure_iff.mp h)
    | some document =>
      rw [perform, documentSaved] at h
      split at h
      · exact .inl ⟨_, h⟩
      · exact .inr (Dialogue.course_pure_iff.mp h)
  | filesChanged documents =>
    refine .inr (.inr ⟨by simp, by simp, ?_⟩)
    rw [perform, filesChanged] at h
    split_ifs at h
    · exact .inl ⟨_, h⟩
    · exact .inr (Dialogue.course_pure_iff.mp h)
  | executeCommand command =>
    refine .inr (.inr ⟨by simp, by simp, ?_⟩)
    rw [perform] at h
    split_ifs at h
    · exact .inl ⟨_, h⟩
    · exact .inr (Dialogue.course_pure_iff.mp h)
  | shutdown | notOffered | noEffect =>
    exact .inr (.inr ⟨by simp, by simp, .inr (Dialogue.course_pure_iff.mp h)⟩)

/-! ## What stays -/

/-- Settings take effect. Only they and the watching of files change, and all that is said
is about settings. -/
structure Configures (s : Session) (steps : List Step) (t : Session) : Prop where
  stays : ∃ channel isWatching, t = { s with channel, isWatching }
  about : ∀ step ∈ steps, step.isAboutSettings = true

theorem configures_refl (s : Session) : s.Configures [] s := ⟨⟨_, _, rfl⟩, List.forall_mem_nil _⟩

theorem Configures.trans (h : s.Configures xs t) (h' : t.Configures ys u) :
    s.Configures (xs ++ ys) u where
  stays := by
    obtain ⟨_, _, rfl⟩ := h.stays
    obtain ⟨_, _, rfl⟩ := h'.stays
    exact ⟨_, _, rfl⟩
  about := List.forall_mem_append.mpr ⟨h.about, h'.about⟩

theorem configures_renewWatch (h : Course s.renewWatch steps t) : s.Configures steps t := by
  rcases course_renewWatch h with ⟨-, rfl, rfl⟩ | ⟨ending, reply, -, hended, rfl, rfl⟩
  · exact configures_refl _
  · refine ⟨⟨_, _, rfl⟩, List.forall_mem_append.mpr ⟨?_, List.forall_mem_singleton.mpr rfl⟩⟩
    obtain ⟨-, ⟨-, rfl⟩ | ⟨-, reply, rfl⟩⟩ := course_endWatch hended
    · exact List.forall_mem_nil _
    · exact List.forall_mem_singleton.mpr rfl

theorem isAboutSettings_globNotices (settings : Settings) :
    ∀ step ∈ (globNotices settings).map Step.told, step.isAboutSettings = true := by
  rw [globNotices]
  split
  · exact List.forall_mem_nil _
  · exact List.forall_mem_singleton.mpr rfl

theorem configures_adopt {settings : Settings} (h : Course (s.adopt settings) steps t) :
    s.Configures steps t := by
  obtain ⟨rest, rfl, hrest⟩ := course_adopt h
  have hadopted : s.Configures ((globNotices settings).map .told)
      { s with channel := s.channel.replace settings } :=
    ⟨⟨_, _, rfl⟩, isAboutSettings_globNotices settings⟩
  refine hadopted.trans ?_
  rcases hrest with ⟨-, rfl, rfl⟩ | ⟨-, hrenewed⟩
  · exact configures_refl _
  · exact configures_renewWatch hrenewed

theorem configures_applyValue? {v : Option Value} (h : Course (s.applyValue? v) steps t) :
    s.Configures steps t := by
  rcases course_applyValue? h with ⟨-, rfl, rfl⟩ | ⟨w, -, ⟨o, -, hadopted⟩ | ⟨m, -, rfl, rfl⟩⟩
  · exact configures_refl _
  · exact configures_adopt hadopted
  · exact ⟨⟨_, _, rfl⟩, List.forall_mem_singleton.mpr rfl⟩

theorem configures_askValue {v : Option Value} (h : Course s.askValue steps v) :
    s.Configures steps s := by
  rcases course_askValue h with ⟨-, rfl, -⟩ | ⟨reply, -, rfl, -⟩
  · exact configures_refl s
  · exact ⟨⟨_, _, rfl⟩, List.forall_mem_singleton.mpr rfl⟩

/-- New settings of the editor take effect, and nothing else happens. -/
theorem configures_settingsChanged {given : Value}
    (h : Course (s.settingsChanged given) steps t) : s.Configures steps t := by
  obtain ⟨asked, rest, v, rfl, hrest, hasked⟩ := course_settingsChanged h
  rcases hasked with ⟨w, -, rfl, -⟩ | ⟨-, hasked⟩
  · exact configures_applyValue? hrest
  · exact (configures_askValue hasked).trans (configures_applyValue? hrest)

/-- In a call settings take effect, and then there is at most one run. -/
theorem configures_perform (horder : order.IsLater) (h : Course (s.perform order) steps t) :
    s.Configures steps t ∨ ∃ before ran between target, steps = before ++ ran ∧
      s.Configures before between ∧ Course (between.analyse target) ran t := by
  rcases course_perform horder h with ⟨-, h⟩ | ⟨given, -, h⟩ | ⟨-, -, ⟨target, h⟩ | ⟨rfl, rfl⟩⟩
  · obtain ⟨asked, given, renewed, ran, v, configured, watching, rfl, hasked, hgiven, hrenewed, hran⟩ :=
      course_start h
    have hgiven := (configures_askValue hasked).trans (configures_applyValue? hgiven)
    exact .inr ⟨_, ran, watching, none, rfl, hgiven.trans (configures_renewWatch hrenewed), hran⟩
  · exact .inl (configures_settingsChanged h)
  · exact .inr ⟨[], steps, s, target, rfl, configures_refl s, h⟩
  · exact .inl (configures_refl _)

end Session

end DiagnosticRelay
