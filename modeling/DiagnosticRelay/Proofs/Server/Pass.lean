import DiagnosticRelay.Proofs.Server.Course
import DiagnosticRelay.Server.Session

/-!
# The course of a run in a session

A run begins with its progress, is executed once, and ends with what the session
tells about it. What is told is a list of notices that the outcome fixes.

## Main definitions

* `Session.summaryNotices`, `Session.failureNotices`: what is told of an outcome.
* `Session.outcomeNotices`: what is told of a concluded run.

## Main results

* `Session.course_beginWork`: the ways in which work begins.
* `Session.course_analyse`: everything that happens in a run.
-/

namespace DiagnosticRelay.Session

open Dialogue (Course Step)

variable {s t : Session} {steps : List Step} {token : Option UInt64} {text : String}

/-! ## Progress -/

/-- The notices that end the work of a token, if there is one. -/
def endNotices (token : Option UInt64) (text : String) : List Notice :=
  token.toList.map fun t => .endWork t text

/-- Work begins without progress, or with a token that the editor refuses, or with one
that it takes. -/
theorem course_beginWork (h : Course (s.beginWork text) steps (t, token)) :
    (s.abilities.progress = false ∧ steps = [] ∧ t = s ∧ token = none) ∨
      ∃ reply, s.abilities.progress = true ∧ t = { s with nextToken := s.nextToken + 1 } ∧
        ((reply.isConsent = false ∧ steps = [.asked (.progress s.nextToken) reply] ∧ token = none) ∨
          (reply.isConsent = true ∧ token = some s.nextToken ∧
            steps = [.asked (.progress s.nextToken) reply,
              .told (.beginWork s.nextToken text)])) := by
  rw [beginWork] at h
  cases hprogress : s.abilities.progress with
  | false =>
    simp only [hprogress, Bool.not_false, if_true] at h
    obtain ⟨rfl, hresult⟩ := Dialogue.course_pure_iff.mp h
    obtain ⟨rfl, rfl⟩ := Prod.mk.inj hresult
    exact .inl ⟨rfl, rfl, rfl, rfl⟩
  | true =>
    simp only [hprogress, Bool.not_true, Bool.false_eq_true, if_false] at h
    obtain ⟨xs, ys, reply, rfl, hasked, hrest⟩ := Dialogue.course_bind_iff.mp h
    obtain rfl := Dialogue.course_asking_iff.mp hasked
    refine .inr ⟨reply, rfl, ?_⟩
    cases hconsent : reply.isConsent with
    | false =>
      simp only [hconsent, Bool.false_eq_true, if_false] at hrest
      obtain ⟨rfl, hresult⟩ := Dialogue.course_pure_iff.mp hrest
      obtain ⟨rfl, rfl⟩ := Prod.mk.inj hresult
      exact ⟨rfl, .inl ⟨rfl, rfl, rfl⟩⟩
    | true =>
      simp only [hconsent, if_true] at hrest
      obtain ⟨us, vs, _, rfl, htold, hend⟩ := Dialogue.course_bind_iff.mp hrest
      obtain rfl := Dialogue.course_telling_iff.mp htold
      obtain ⟨rfl, hresult⟩ := Dialogue.course_pure_iff.mp hend
      obtain ⟨rfl, rfl⟩ := Prod.mk.inj hresult
      exact ⟨rfl, .inr ⟨rfl, rfl, rfl⟩⟩

/-! ## Outcomes -/

/-- What is told of a run that succeeded. -/
def summaryNotices (store : Store) (summary : Summary) (token : Option UInt64) : List Notice :=
  summary.touched.filterMap (publication? store) ++
    summary.generalErrors.map (fun text => .show .warning (remark text)) ++
    .log .info (remark (summary.status.getD "done")) ::
    endNotices token (summary.status.getD "done")

/-- What is told of a run that failed. -/
def failureNotices (failure : Failure) (token : Option UInt64) : List Notice :=
  endNotices token "failed" ++ [.show .error failure.message]

/-- What is told of a run that is concluded. -/
def outcomeNotices (token : Option UInt64) : Store × Except Failure Summary → List Notice
  | (store, .ok summary) => summaryNotices store summary token
  | (_, .error failure) => failureNotices failure token

theorem course_tellSummary {store : Store} {summary : Summary} {u : Unit}
    (h : Course (tellSummary store summary token) steps u) :
    steps = (summaryNotices store summary token).map .told := by
  obtain ⟨_, _, _, rfl, hpublished, h⟩ := Dialogue.course_bind_iff.mp h
  obtain ⟨_, _, _, rfl, hwarned, h⟩ := Dialogue.course_bind_iff.mp h
  obtain ⟨_, _, _, rfl, hlogged, h⟩ := Dialogue.course_bind_iff.mp h
  rw [Dialogue.course_tellAll_iff.mp hpublished, Dialogue.course_tellAll_iff.mp hwarned,
    Dialogue.course_telling_iff.mp hlogged, Dialogue.course_tellAll_iff.mp h]
  simp [summaryNotices, endNotices]

theorem course_tellFailure {failure : Failure} {u : Unit}
    (h : Course (tellFailure failure token) steps u) :
    steps = (failureNotices failure token).map .told := by
  obtain ⟨_, _, _, rfl, hended, h⟩ := Dialogue.course_bind_iff.mp h
  rw [Dialogue.course_tellAll_iff.mp hended, Dialogue.course_telling_iff.mp h]
  simp [failureNotices, endNotices]

/-- A run begins its work, is executed once, and is told about; nothing but its store and
the next token changes. -/
theorem course_analyse {target : Option Path} (h : Course (s.analyse target) steps t) :
    ∃ opening begun token execution,
      Course (s.beginWork (workName target)) opening (begun, token) ∧
      steps = opening ++ .executed (Launch.of s.root s.settings s.store target).commandLine s.root
        execution :: (outcomeNotices token
          ((Launch.of s.root s.settings s.store target).conclude execution s.store)).map .told ∧
      t = { begun with
        store := ((Launch.of s.root s.settings s.store target).conclude execution s.store).1 } := by
  obtain ⟨opening, _, ⟨begun, token⟩, rfl, hopening, hbody⟩ := Dialogue.course_bind_iff.mp h
  obtain ⟨_, _, execution, rfl, hexecuted, hrest⟩ := Dialogue.course_bind_iff.mp hbody
  obtain rfl := Dialogue.course_executing_iff.mp hexecuted
  -- Beginning the work uses up a token and leaves the rest.
  have hsame : begun.root = s.root ∧ begun.settings = s.settings ∧ begun.store = s.store := by
    rcases course_beginWork hopening with ⟨-, -, rfl, -⟩ | ⟨reply, -, rfl, -⟩ <;>
      exact ⟨rfl, rfl, rfl⟩
  obtain ⟨hroot, hsettings, hstore⟩ := hsame
  rw [hroot, hsettings, hstore] at hrest ⊢
  refine ⟨opening, begun, token, execution, hopening, ?_⟩
  cases houtcome : (Launch.of s.root s.settings s.store target).conclude execution s.store with
  | mk store outcome =>
    rw [houtcome] at hrest
    cases outcome with
    | ok summary =>
      obtain ⟨_, _, _, rfl, htold, hend⟩ := Dialogue.course_bind_iff.mp hrest
      obtain ⟨rfl, rfl⟩ := Dialogue.course_pure_iff.mp hend
      rw [course_tellSummary htold]
      simp [outcomeNotices, hroot]
    | error failure =>
      obtain ⟨_, _, _, rfl, htold, hend⟩ := Dialogue.course_bind_iff.mp hrest
      obtain ⟨rfl, rfl⟩ := Dialogue.course_pure_iff.mp hend
      rw [course_tellFailure htold]
      simp [outcomeNotices, hroot]

end DiagnosticRelay.Session
