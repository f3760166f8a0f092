import DiagnosticRelay.Proofs.Store.Update
import DiagnosticRelay.Run.Pass

/-!
# What one run decides

A run that succeeds decides the entries of the paths it covers and leaves all
others alone. A run on one file without findings covers that file, but it clears
an entry only if there was one when it got its turn. An entry that came in
between is overlooked.

## Main definitions

* `Mapping.Covers`: the paths that a run decides.
* `Launch.Overlooks`: a run does not clear its file.

## Main results

* `Launch.get?_apply_of_covers`, `Launch.get?_apply_of_not_covers`,
  `Launch.get?_apply_of_overlooks`: entries after a run.
* `Launch.get?_apply_of_not_touched`: paths that a run does not list keep their
  entries.
-/

namespace DiagnosticRelay

namespace Mapping

variable {m : Mapping} {report : Report} {target : Option Path} {t p : Path}

/-- The paths that a run with a target decides: all of them without a target, those
of the files whose violations are listed, and the target itself if there are none. -/
def Covers (m : Mapping) (target : Option Path) (report : Report) (p : Path) : Prop :=
  match target with
  | none => True
  | some t => m.Reports report p ∨ report.IsClean ∧ Path.Same t p

theorem not_reports_of_clean (h : report.hasFindings = false) : ¬ m.Reports report p := by
  rintro ⟨name, violations, hlists, -⟩
  exact Report.isClean_iff.mpr h name violations hlists

theorem covers_of_reports (h : m.Reports report p) : m.Covers target report p := by
  cases target with
  | none => trivial
  | some t => exact .inl h

theorem covers_iff_of_findings (h : report.hasFindings = true) :
    m.Covers (some t) report p ↔ m.Reports report p := by
  simp [Covers, Report.isClean_iff, h]

theorem covers_iff_of_clean (h : report.hasFindings = false) :
    m.Covers (some t) report p ↔ Path.Same t p := by
  simp [Covers, Report.isClean_iff, h, not_reports_of_clean h]

end Mapping

namespace Launch

variable {l : Launch} {report : Report} {store : Store} {p : Path}

/-- A run decides a path. -/
def Covers (l : Launch) (report : Report) (p : Path) : Prop := l.mapping.Covers l.target report p

/-- A run on a file has no findings. -/
def IsCleanOn (l : Launch) (report : Report) (p : Path) : Prop :=
  (∃ target, l.target = some target ∧ Path.Same target p) ∧ report.hasFindings = false

/-- A run on a file has no findings, and the file has an entry that it did not have
when the run got its turn. -/
def Overlooks (l : Launch) (report : Report) (store : Store) (p : Path) : Prop :=
  l.IsCleanOn report p ∧ l.hadEntry = false ∧ store.contains p = true

theorem IsCleanOn.covers (h : l.IsCleanOn report p) : l.Covers report p := by
  obtain ⟨⟨target, htarget, hsame⟩, hclean⟩ := h
  rw [Covers, htarget]
  exact (Mapping.covers_iff_of_clean hclean).mpr hsame

theorem IsCleanOn.not_reports (h : l.IsCleanOn report p) : ¬ l.mapping.Reports report p :=
  Mapping.not_reports_of_clean h.2

/-! ## The ways to apply a report -/

theorem apply_of_project (h : l.target = none) :
    (l.apply report store).1 = (l.mapping.apply report .replace store).store ∧
      (l.apply report store).2.touched = (l.mapping.apply report .replace store).touched := by
  rw [apply, h]
  exact ⟨rfl, rfl⟩

theorem apply_of_findings {target : Path} (h : l.target = some target)
    (hfindings : report.hasFindings = true) :
    (l.apply report store).1 = (l.mapping.apply report .merge store).store ∧
      (l.apply report store).2.touched = (l.mapping.apply report .merge store).touched := by
  rw [apply, h]
  simp [applyToFile, hfindings]

theorem apply_of_cleared {target : Path} (h : l.target = some target)
    (hclean : report.hasFindings = false) (hentry : l.hadEntry = true ∧ store.contains target = true) :
    (l.apply report store).1 = store.erase target ∧
      (l.apply report store).2.touched = [target] := by
  rw [apply, h]
  simp [applyToFile, hclean, hentry.1, hentry.2]

theorem apply_of_kept {target : Path} (h : l.target = some target)
    (hclean : report.hasFindings = false)
    (hentry : ¬ (l.hadEntry = true ∧ store.contains target = true)) :
    (l.apply report store).1 = store ∧ (l.apply report store).2.touched = [] := by
  rw [apply, h]
  simp [applyToFile, hclean, hentry]

/-! ## Entries -/

/-- A path that is decided, and not overlooked, has what the report says. -/
theorem get?_apply_of_covers (h : l.Covers report p) (hseen : ¬ l.Overlooks report store p) :
    (l.apply report store).1.get? p = l.mapping.entryOf report p := by
  cases htarget : l.target with
  | none => rw [(apply_of_project htarget).1, Mapping.get?_apply_replace]
  | some target =>
    rw [Covers, htarget] at h
    cases hclean : report.hasFindings with
    | true =>
      have hreports := (Mapping.covers_iff_of_findings hclean).mp h
      obtain ⟨ds, hds⟩ := Option.isSome_iff_exists.mp (Mapping.entryOf_isSome_iff.mpr hreports)
      rw [(apply_of_findings htarget hclean).1, Mapping.get?_apply_merge, hds, Option.some_or]
    | false =>
      have hsame := (Mapping.covers_iff_of_clean hclean).mp h
      have hon : l.IsCleanOn report p := ⟨⟨target, htarget, hsame⟩, hclean⟩
      rw [Mapping.entryOf_eq_none_iff.mpr hon.not_reports]
      -- If the file is not cleared, it must have been without an entry all along: an entry
      -- that the run did not see at its turn would be overlooked.
      by_cases hentry : l.hadEntry = true ∧ store.contains target = true
      · rw [(apply_of_cleared htarget hclean hentry).1, Store.get?_erase, if_pos hsame]
      · rw [(apply_of_kept htarget hclean hentry).1, ← Store.contains_eq_false_iff]
        by_contra hcontains
        refine hseen ⟨hon, ?_, by simpa using hcontains⟩
        by_contra hhad
        refine hentry ⟨by simpa using hhad, ?_⟩
        rw [store.contains_congr hsame]
        simpa using hcontains

/-- An overlooked path keeps its entry. -/
theorem get?_apply_of_overlooks (h : l.Overlooks report store p) :
    (l.apply report store).1.get? p = store.get? p := by
  obtain ⟨⟨⟨target, htarget, -⟩, hclean⟩, hhad, -⟩ := h
  rw [(apply_of_kept htarget hclean (by simp [hhad])).1]

/-- A path that is not listed keeps its entry. -/
theorem get?_apply_of_not_touched
    (h : ¬ ∃ q ∈ (l.apply report store).2.touched, Path.Same q p) :
    (l.apply report store).1.get? p = store.get? p := by
  cases htarget : l.target with
  | none =>
    rw [(apply_of_project htarget).2] at h
    rw [(apply_of_project htarget).1, Mapping.get?_apply_of_not_touched _ _ _ _ h]
  | some target =>
    cases hclean : report.hasFindings with
    | true =>
      rw [(apply_of_findings htarget hclean).2] at h
      rw [(apply_of_findings htarget hclean).1, Mapping.get?_apply_of_not_touched _ _ _ _ h]
    | false =>
      by_cases hentry : l.hadEntry = true ∧ store.contains target = true
      · obtain ⟨hstore, htouched⟩ := apply_of_cleared htarget hclean hentry
        have hne : ¬ Path.Same target p := by simpa [htouched] using h
        rw [hstore, Store.get?_erase, if_neg hne]
      · rw [(apply_of_kept htarget hclean hentry).1]

/-- A path that is not decided keeps its entry. -/
theorem get?_apply_of_not_covers (h : ¬ l.Covers report p) :
    (l.apply report store).1.get? p = store.get? p := by
  have hreports : ¬ l.mapping.Reports report p := fun hreports =>
    h (Mapping.covers_of_reports hreports)
  -- What is listed is covered, whichever way the report is applied.
  refine get?_apply_of_not_touched ?_
  rintro ⟨q, hq, hsame⟩
  cases htarget : l.target with
  | none => exact h (by simp [Covers, Mapping.Covers, htarget])
  | some target =>
    cases hclean : report.hasFindings with
    | true =>
      rw [(apply_of_findings htarget hclean).2] at hq
      have htouched := (Mapping.exists_mem_touched_iff _ _ _ _ _).mp ⟨q, hq, hsame⟩
      simp [hreports] at htouched
    | false =>
      by_cases hentry : l.hadEntry = true ∧ store.contains target = true
      · rw [(apply_of_cleared htarget hclean hentry).2, List.mem_singleton] at hq
        subst hq
        exact h (IsCleanOn.covers ⟨⟨q, htarget, hsame⟩, hclean⟩)
      · rw [(apply_of_kept htarget hclean hentry).2] at hq
        cases hq

/-! ## Whole runs -/

theorem conclude_of_report {execution : Execution} (h : execution.report = .ok report) :
    l.conclude execution store = ((l.apply report store).1, .ok (l.apply report store).2) := by
  rw [conclude, h]

/-- A run that fails changes nothing. -/
theorem conclude_of_failure {execution : Execution} {failure : Failure}
    (h : execution.report = .error failure) :
    l.conclude execution store = (store, .error failure) := by
  rw [conclude, h]

/-- A run that reads the store at its turn and finds it unchanged overlooks nothing. -/
theorem not_overlooks_of (root : Path) (settings : Settings) (target : Option Path) :
    ¬ (of root settings store target).Overlooks report store p := by
  rintro ⟨⟨⟨t, ht, hsame⟩, -⟩, hhad, hcontains⟩
  rw [of] at ht hhad
  simp only at ht hhad
  rw [ht, Option.any_some, store.contains_congr hsame, hcontains] at hhad
  cases hhad

end Launch

end DiagnosticRelay
