import DiagnosticRelay.Proofs.Server.Course
import DiagnosticRelay.Server.Lifecycle

/-!
# Calls one after another

Once the server has met its editor it has a session, and what its handlers do is done in
that session. So a life without overlapping calls is a list of orders, each with the
steps it took.

## Main definitions

* `Session.perform`: what an order does in a session.
* `Server.Handles`: orders are carried out one after another.

## Main results

* `Server.course_meet`: what the server has once it has met its editor.
* `Server.course_carryOut`: orders are carried out in the session.
* `Server.Handles.invariant`: what holds of a session is kept by calls.
-/

namespace DiagnosticRelay

open Dialogue (Course Step)

/-- What an order does in a session. -/
def Session.perform (s : Session) : Order → Dialogue Session
  | .greeted => s.start
  | .documentSaved (some document) => s.documentSaved document
  | .filesChanged documents => s.filesChanged documents
  | .settingsChanged given => s.settingsChanged given
  | .executeCommand command => if command = Server.analyseCommand then s.analyse none else pure s
  | .greet _ | .documentSaved none | .shutdown | .notOffered | .noEffect => pure s

/-- An order that does not begin a session. -/
def Order.IsLater : Order → Prop
  | .greet _ => False
  | _ => True

namespace Server

variable {s t : Server} {session : Session} {order : Order} {steps : List Step}
  {result : Except CallFault Json.Value}

/-- A server carries out orders one after another, each with the steps it takes. None of
them begins a session. -/
inductive Handles (s : Server) : List (Order × List Step) → Server → Prop where
  | nil : Handles s [] s
  | concat {calls : List (Order × List Step)} {t u : Server} {order : Order} {steps : List Step}
      {result : Except CallFault Json.Value} :
      Handles s calls t → order.IsLater → Course (t.carryOut order) steps (u, result) →
      Handles s (calls ++ [(order, steps)]) u

/-- Meeting its editor, a server looks up the settings of the workspace's files once. -/
theorem course_meet {greeting : Greeting}
    (h : Course (s.carryOut (.greet greeting)) steps (t, result)) :
    ∃ fileSettings, steps = [.consulted (greeting.root?.getD s.here) fileSettings] ∧
      t.session =
        some (s.sessionWith (greeting.root?.getD s.here) greeting.abilities fileSettings) := by
  obtain ⟨met, hmet, hresult⟩ := Dialogue.course_map_iff.mp h
  obtain ⟨fileSettings, hconsulted, rfl⟩ := Dialogue.course_map_iff.mp hmet
  obtain rfl := (Prod.mk.inj hresult).1
  exact ⟨fileSettings, Dialogue.course_consulting_iff.mp hconsulted, rfl⟩

/-- An order that goes to the session. -/
theorem course_within {act : Session → Dialogue Session} (hsession : s.session = some session)
    (h : Course (s.within act) steps t) :
    ∃ after, Course (act session) steps after ∧ t = { s with session := some after } := by
  rw [within, hsession] at h
  exact Dialogue.course_map_iff.mp h

/-- What the server does for an order is done in its session. -/
theorem course_carryOut (hsession : s.session = some session) (horder : order.IsLater)
    (h : Course (s.carryOut order) steps (t, result)) :
    ∃ after, Course (session.perform order) steps after ∧ t = { s with session := some after } := by
  have of_within {act : Session → Dialogue Session} {value : Except CallFault Json.Value}
      (h : Course (s.within act >>= fun after => pure (after, value)) steps (t, result)) :
      ∃ after, Course (act session) steps after ∧ t = { s with session := some after } := by
    obtain ⟨u, hwithin, hresult⟩ := Dialogue.course_map_iff.mp h
    obtain rfl := (Prod.mk.inj hresult).1
    exact course_within hsession hwithin
  have of_pure {value : Except CallFault Json.Value}
      (h : Course (pure (s, value)) steps (t, result)) :
      ∃ after, Course (pure session) steps after ∧ t = { s with session := some after } := by
    obtain ⟨rfl, hresult⟩ := Dialogue.course_pure_iff.mp h
    obtain rfl := (Prod.mk.inj hresult).1
    exact ⟨session, Dialogue.course_pure_iff.mpr ⟨rfl, rfl⟩, by rw [← hsession]⟩
  cases order with
  | greet greeting => exact horder.elim
  | greeted => exact of_within h
  | shutdown => exact of_pure h
  | documentSaved document =>
    cases document with
    | none => exact of_pure h
    | some document => exact of_within h
  | filesChanged documents => exact of_within h
  | settingsChanged given => exact of_within h
  | executeCommand command =>
    simp only [carryOut, executeCommand, hsession, Option.isNone_some] at h
    rw [Session.perform]
    by_cases hcommand : command = analyseCommand
    · rw [if_neg (by simpa using hcommand)] at h
      rw [if_pos hcommand]
      exact of_within h
    · rw [if_pos hcommand] at h
      rw [if_neg hcommand]
      exact of_pure h
  | notOffered => exact of_pure h
  | noEffect => exact of_pure h

/-- The session stays through all calls, and so does what every order keeps. -/
theorem Handles.invariant {P : List (Order × List Step) → Session → Prop}
    {calls : List (Order × List Step)} (h : s.Handles calls t) (hsession : s.session = some session)
    (hinitial : P [] session)
    (hkept : ∀ calls before order steps after, P calls before → order.IsLater →
      Course (before.perform order) steps after → P (calls ++ [(order, steps)]) after) :
    ∃ after, t.session = some after ∧ P calls after := by
  induction h with
  | nil => exact ⟨session, hsession, hinitial⟩
  | concat _ horder hcourse ih =>
    obtain ⟨before, hbefore, hP⟩ := ih
    obtain ⟨after, hperformed, rfl⟩ := course_carryOut hbefore horder hcourse
    exact ⟨after, rfl, hkept _ _ _ _ _ hP horder hperformed⟩

end Server

end DiagnosticRelay
