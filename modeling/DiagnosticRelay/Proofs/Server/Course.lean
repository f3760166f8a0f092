import DiagnosticRelay.Server.Dialogue

/-!
# Courses of composed dialogues

A dialogue that is put together from others takes their courses one after another,
and the single steps have one course each.

## Main definitions

* `transcript`: the steps that a dialogue takes with a host.

## Main results

* `course_bind_iff`: the courses of a dialogue and what follows from its result.
* `course_tellAll_iff`, `course_asking_iff`, `course_executing_iff`: single steps.
* `course_transcript`: the steps with a given host.
-/

namespace DiagnosticRelay.Dialogue

variable {α β : Type} {steps : List Step}

@[simp] theorem course_pure_iff {a b : α} :
    Course (pure a) steps b ↔ steps = [] ∧ b = a := by
  constructor
  · intro h
    cases h
    exact ⟨rfl, rfl⟩
  · rintro ⟨rfl, rfl⟩
    exact .done b

theorem exists_of_course_bind {d : Dialogue α} {f : α → Dialogue β} {b : β}
    (h : Course (d.bind f) steps b) :
    ∃ xs ys a, steps = xs ++ ys ∧ Course d xs a ∧ Course (f a) ys b := by
  induction d generalizing steps with
  | done a => exact ⟨[], steps, a, rfl, .done a, h⟩
  | tell n next ih =>
    cases h with
    | tell h =>
      obtain ⟨xs, ys, a, rfl, first, second⟩ := ih h
      exact ⟨.told n :: xs, ys, a, rfl, .tell first, second⟩
  | ask q next ih =>
    cases h with
    | ask r h =>
      obtain ⟨xs, ys, a, rfl, first, second⟩ := ih r h
      exact ⟨.asked q r :: xs, ys, a, rfl, .ask r first, second⟩
  | execute c p next ih =>
    cases h with
    | execute e h =>
      obtain ⟨xs, ys, a, rfl, first, second⟩ := ih e h
      exact ⟨.executed c p e :: xs, ys, a, rfl, .execute e first, second⟩
  | consult p next ih =>
    cases h with
    | consult s h =>
      obtain ⟨xs, ys, a, rfl, first, second⟩ := ih s h
      exact ⟨.consulted p s :: xs, ys, a, rfl, .consult s first, second⟩

/-- A dialogue and what follows from its result take a course each. -/
theorem course_bind_iff {d : Dialogue α} {f : α → Dialogue β} {b : β} :
    Course (d >>= f) steps b ↔
      ∃ xs ys a, steps = xs ++ ys ∧ Course d xs a ∧ Course (f a) ys b := by
  constructor
  · exact exists_of_course_bind
  · rintro ⟨xs, ys, a, rfl, first, second⟩
    exact first.append second

@[simp] theorem course_telling_iff {n : Notice} {u : Unit} :
    Course (telling n) steps u ↔ steps = [.told n] := by
  constructor
  · intro h
    cases h with
    | tell h =>
      cases h
      rfl
  · rintro rfl
    exact .tell (.done u)

@[simp] theorem course_asking_iff {q : Query} {r : Reply} :
    Course (asking q) steps r ↔ steps = [.asked q r] := by
  constructor
  · intro h
    cases h with
    | ask r h =>
      cases h
      rfl
  · rintro rfl
    exact .ask r (.done r)

@[simp] theorem course_executing_iff {commandLine : String} {directory : Path} {e : Execution} :
    Course (executing commandLine directory) steps e ↔
      steps = [.executed commandLine directory e] := by
  constructor
  · intro h
    cases h with
    | execute e h =>
      cases h
      rfl
  · rintro rfl
    exact .execute e (.done e)

@[simp] theorem course_consulting_iff {root : Path} {settings : Settings} :
    Course (consulting root) steps settings ↔ steps = [.consulted root settings] := by
  constructor
  · intro h
    cases h with
    | consult settings h =>
      cases h
      rfl
  · rintro rfl
    exact .consult settings (.done settings)

/-- What is done with a result at the end takes no further step. -/
theorem course_map_iff {d : Dialogue α} {f : α → β} {b : β} :
    Course (d >>= fun a => pure (f a)) steps b ↔ ∃ a, Course d steps a ∧ b = f a := by
  rw [course_bind_iff]
  constructor
  · rintro ⟨xs, ys, a, rfl, first, second⟩
    obtain ⟨rfl, rfl⟩ := course_pure_iff.mp second
    exact ⟨a, by rwa [List.append_nil], rfl⟩
  · rintro ⟨a, first, rfl⟩
    exact ⟨steps, [], a, by rw [List.append_nil], first, course_pure_iff.mpr ⟨rfl, rfl⟩⟩

@[simp] theorem course_tellAll_iff {notices : List Notice} {u : Unit} :
    Course (tellAll notices) steps u ↔ steps = notices.map .told := by
  induction notices generalizing steps with
  | nil => exact course_pure_iff.trans (by simp)
  | cons n notices ih =>
    constructor
    · intro h
      cases h with
      | tell h => rw [ih.mp h, List.map_cons]
    · rintro rfl
      exact .tell (ih.mpr rfl)

/-! ## Courses with a host -/

/-- The steps that a dialogue takes with a host. -/
def transcript {σ : Type} (host : Host σ) (s : σ) : Dialogue α → List Step
  | .done _ => []
  | .tell n next => .told n :: next.transcript host s
  | .ask q next => .asked q (host.reply s q) :: (next (host.reply s q)).transcript host s
  | .execute c p next =>
    let r := host.execute s c p
    .executed c p r.1 :: (next r.1).transcript host r.2
  | .consult p next =>
    .consulted p (host.settings s p) :: (next (host.settings s p)).transcript host s

/-- With a host, a dialogue takes the steps of its transcript. -/
theorem course_transcript {σ : Type} (host : Host σ) (s : σ) (d : Dialogue α) :
    Course d (d.transcript host s) (d.converse host s).result := by
  induction d generalizing s with
  | done a => exact .done a
  | tell n next ih => exact .tell (ih s)
  | ask q next ih => exact .ask _ (ih _ s)
  | execute c p next ih => exact .execute _ (ih _ _)
  | consult p next ih => exact .consult _ (ih _ s)

/-- The replies in a transcript are the host's. -/
theorem reply_of_mem_transcript {σ : Type} {host : Host σ} {s : σ} {d : Dialogue α}
    {query : Query} {reply : Reply} (h : .asked query reply ∈ d.transcript host s) :
    ∃ t, reply = host.reply t query := by
  induction d generalizing s with
  | done a => cases h
  | tell n next ih => exact ih ((List.mem_cons.mp h).resolve_left nofun)
  | ask q next ih =>
    rcases List.mem_cons.mp h with h | h
    · cases h
      exact ⟨s, rfl⟩
    · exact ih _ h
  | execute c p next ih => exact ih _ ((List.mem_cons.mp h).resolve_left nofun)
  | consult p next ih => exact ih _ ((List.mem_cons.mp h).resolve_left nofun)

end DiagnosticRelay.Dialogue
