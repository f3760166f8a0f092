import DiagnosticRelay.Proofs.Report.Order
import DiagnosticRelay.Proofs.Store.Lookup
import DiagnosticRelay.Store.Update

/-!
# What a report does to the store

A report is entered file by file, and several of its files may stand for one
local path. For each path only the last of them counts, and the paths that may
have changed are listed.

## Main definitions

* `Mapping.Reports`: a report has a file with findings for a path.
* `Mapping.Says`: what a report says on a path, file by file.
* `Mapping.lastOn?`: the last of the files for a path.

## Main results

* `says_entryOf`: the last file is what an ordered report says.
* `get?_apply_replace`, `get?_apply_merge`: entries after a report.
* `exists_mem_touched_iff`: which paths are listed.
* `get?_apply_of_not_touched`: other paths keep their entries.
-/

namespace DiagnosticRelay.Mapping

variable (m : Mapping) (report : Report) (store : Store) (p : Path)

/-! ## What a report says -/

/-- Violations are listed of a file that stands for a path. -/
def Reports : Prop :=
  ∃ name violations, report.Lists name violations ∧ Path.Same (m.localPath name) p

/-- What a report says on a path: the diagnostics of the violations that it lists of a file,
in their order, where every other file for the path has smaller octets in its reported
path; and nothing if no file stands for the path. -/
def Says : Option (List Diagnostic) → Prop
  | none => ¬ m.Reports report p
  | some ds =>
    ∃ name violations, report.Lists name violations ∧ Path.Same (m.localPath name) p ∧
      ds = violations.map Diagnostic.ofViolation ∧
      ∀ other others, report.Lists other others → Path.Same (m.localPath other) p →
        (other, others) = (name, violations) ∨ Octets.ofString other < Octets.ofString name

/-- The last of some files that stands for a path. -/
def lastOn? (files : List (String × List Violation)) : Option (String × List Violation) :=
  (files.filter fun file => Path.Same (m.localPath file.1) p).getLast?

/-- The entry that a report makes for a path. -/
def entryOf : Option (List Diagnostic) :=
  (m.lastOn? p report.findings).map fun file => file.2.map Diagnostic.ofViolation

variable {m report p} in
theorem lastOn?_eq_none_iff {files : List (String × List Violation)} :
    m.lastOn? p files = none ↔ ∀ file ∈ files, ¬ Path.Same (m.localPath file.1) p := by
  simp [lastOn?]

theorem lastOn?_cons (file : String × List Violation) (files : List (String × List Violation)) :
    m.lastOn? p (file :: files) =
      (m.lastOn? p files).or (if Path.Same (m.localPath file.1) p then some file else none) := by
  rw [lastOn?, List.filter_cons]
  by_cases h : Path.Same (m.localPath file.1) p
  · simp [h, lastOn?, List.getLast?_cons]
  · simp [h, lastOn?]

variable {m report p} in
theorem reports_iff :
    m.Reports report p ↔ ∃ file ∈ report.findings, Path.Same (m.localPath file.1) p := by
  simp only [Reports, Report.mem_findings_iff, Prod.exists]

variable {m report p} in
theorem entryOf_eq_none_iff : m.entryOf report p = none ↔ ¬ m.Reports report p := by
  rw [entryOf, Option.map_eq_none_iff, lastOn?_eq_none_iff, reports_iff]
  simp

variable {m report p} in
theorem entryOf_isSome_iff : (m.entryOf report p).isSome = true ↔ m.Reports report p := by
  rw [← not_iff_not, ← entryOf_eq_none_iff, Bool.not_eq_true, Option.isSome_eq_false_iff,
    Option.isNone_iff_eq_none]

variable {m report p} in
/-- The last file for a path stands in an ordered report behind every other one for it. -/
theorem lastOn?_eq_some (h : report.IsOrdered) {file : String × List Violation}
    (hlast : m.lastOn? p report.findings = some file) :
    file ∈ report.findings ∧ Path.Same (m.localPath file.1) p ∧
      ∀ other ∈ report.findings, Path.Same (m.localPath other.1) p →
        other = file ∨ Octets.ofString other.1 < Octets.ofString file.1 := by
  obtain ⟨earlier, hsplit⟩ := List.getLast?_eq_some_iff.mp hlast
  -- The files for the path are in order, and this one is at their end.
  have mem_iff (other : String × List Violation) :
      other ∈ earlier ∨ other = file ↔
        other ∈ report.findings ∧ Path.Same (m.localPath other.1) p := by
    rw [← List.mem_singleton, ← List.mem_append, ← hsplit, List.mem_filter, decide_eq_true_iff]
  obtain ⟨hfile, hsame⟩ := (mem_iff file).mp (.inr rfl)
  have hordered := List.Pairwise.filter (fun file => Path.Same (m.localPath file.1) p)
    h.pairwise_findings
  rw [hsplit, List.pairwise_append] at hordered
  refine ⟨hfile, hsame, fun other hother hp => ?_⟩
  rcases (mem_iff other).mpr ⟨hother, hp⟩ with hearlier | rfl
  · exact .inr (hordered.2.2 other hearlier file (List.mem_singleton_self file))
  · exact .inl rfl

/-- The last file for a path is what an ordered report says on it. -/
theorem says_entryOf (h : report.IsOrdered) : m.Says report p (m.entryOf report p) := by
  cases hlast : m.lastOn? p report.findings with
  | none =>
    have hentry : m.entryOf report p = none := by rw [entryOf, hlast, Option.map_none]
    rw [hentry]
    exact entryOf_eq_none_iff.mp hentry
  | some file =>
    rw [entryOf, hlast, Option.map_some]
    obtain ⟨hfile, hsame, hothers⟩ := lastOn?_eq_some h hlast
    refine ⟨_, _, Report.mem_findings_iff.mp hfile, hsame, rfl, fun other others hother => ?_⟩
    exact hothers (other, others) (Report.mem_findings_iff.mpr hother)

/-! ## Entering files -/

/-- A file is entered for its path, whatever was there. -/
theorem get?_enter (applied : Applied) {file : String × List Violation} (hfile : file.2 ≠ []) :
    (m.enter applied file).store.get? p =
      if Path.Same (m.localPath file.1) p then some (file.2.map Diagnostic.ofViolation)
      else applied.store.get? p := by
  rw [enter, Store.get?_set]
  simp [hfile]

theorem get?_foldl_enter {files : List (String × List Violation)}
    (hfiles : ∀ file ∈ files, file.2 ≠ []) (applied : Applied) :
    (files.foldl m.enter applied).store.get? p =
      ((m.lastOn? p files).map fun file => file.2.map Diagnostic.ofViolation).or
        (applied.store.get? p) := by
  induction files generalizing applied with
  | nil => rfl
  | cons file files ih =>
    rw [List.foldl_cons, ih fun f hf => hfiles f (List.mem_cons_of_mem _ hf),
      get?_enter _ _ _ (hfiles file List.mem_cons_self), lastOn?_cons]
    cases m.lastOn? p files with
    | some last => rfl
    | none => split_ifs <;> rfl

/-- After a report on the whole project, each path has what the report says. -/
theorem get?_apply_replace :
    (m.apply report .replace store).store.get? p = m.entryOf report p := by
  rw [apply, get?_foldl_enter _ _ fun _ => Report.ne_nil_of_mem_findings]
  simp [start, entryOf]

/-- After a report on some files, each path has what the report says, if anything. -/
theorem get?_apply_merge :
    (m.apply report .merge store).store.get? p = (m.entryOf report p).or (store.get? p) := by
  rw [apply, get?_foldl_enter _ _ fun _ => Report.ne_nil_of_mem_findings]
  rfl

/-! ## Listed paths -/

theorem exists_mem_touch_iff (touched : List Path) (q : Path) :
    (∃ r ∈ touch touched q, Path.Same r p) ↔ (∃ r ∈ touched, Path.Same r p) ∨ Path.Same q p := by
  rw [touch]
  split_ifs with h
  · obtain ⟨r, hr, hrq⟩ := List.any_eq_true.mp h
    have hsame : Path.Same r q := by simpa using hrq
    refine ⟨Or.inl, ?_⟩
    rintro (h | hq)
    · exact h
    · exact ⟨r, hr, hsame.trans hq⟩
  · simp [or_and_right, exists_or]

theorem exists_mem_touched_foldl_iff (files : List (String × List Violation)) (applied : Applied) :
    (∃ q ∈ (files.foldl m.enter applied).touched, Path.Same q p) ↔
      (∃ q ∈ applied.touched, Path.Same q p) ∨
        ∃ file ∈ files, Path.Same (m.localPath file.1) p := by
  induction files generalizing applied with
  | nil => simp
  | cons file files ih =>
    rw [List.foldl_cons, ih, enter, exists_mem_touch_iff, List.exists_mem_cons_iff, or_assoc]

/-- The listed paths are those of the files and, if the whole store was replaced,
those that had an entry. -/
theorem exists_mem_touched_iff (mode : ApplyMode) :
    (∃ q ∈ (m.apply report mode store).touched, Path.Same q p) ↔
      (mode = .replace ∧ store.contains p = true) ∨ m.Reports report p := by
  rw [apply, exists_mem_touched_foldl_iff, reports_iff]
  cases mode with
  | replace => simp [start, Store.exists_mem_paths_iff]
  | merge => simp [start]

/-- A path that is not listed keeps its entry. -/
theorem get?_apply_of_not_touched {mode : ApplyMode}
    (h : ¬ ∃ q ∈ (m.apply report mode store).touched, Path.Same q p) :
    (m.apply report mode store).store.get? p = store.get? p := by
  rw [exists_mem_touched_iff, not_or] at h
  have hentry := entryOf_eq_none_iff.mpr h.2
  cases mode with
  | replace =>
    have hold : store.get? p = none := by simpa [Store.contains_eq_isSome_get?] using h.1
    rw [get?_apply_replace, hentry, hold]
  | merge => rw [get?_apply_merge, hentry, Option.none_or]

end DiagnosticRelay.Mapping
