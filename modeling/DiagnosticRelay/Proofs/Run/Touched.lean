import DiagnosticRelay.Proofs.Run.Coverage
import DiagnosticRelay.Proofs.Store.Operations

/-!
# What a run lists

Editors are told of the paths that a run lists, and of no others. So a run has to list
every path whose entry it may have changed, and it lists none twice, in whatever
spellings a path was in the store and in the report. The list grows while the files of a
report are entered: a path joins it unless some spelling of it is there already, so what
has to be kept from file to file is that all its paths differ.

A run on a file without findings lists that file, and only if there was an entry for it to
take away, both at its turn and at its end.

## Main definitions

* `IsEachOnce`: no path is listed twice.
* `Mapping.Tells`: what applying a report tells of it.

## Main results

* `isEachOnce_touch`, `Mapping.isEachOnce_foldl_enter`: one file, and all of them.
* `Mapping.processed_apply`: whether anything was entered.
* `Launch.tells_what_it_touches`: reports that are applied, and runs on clean files.
-/

namespace DiagnosticRelay

variable {m : Mapping} {report : Report} {store : Store} {touched : List Path} {p : Path}

/-- No path is listed twice, in whatever spellings. -/
def IsEachOnce (paths : List Path) : Prop := paths.Pairwise fun p q => ¬ Path.Same p q

theorem isEachOnce_nil : IsEachOnce [] := List.Pairwise.nil

/-- The store lists its paths once, since they are in order. -/
theorem Store.IsSorted.isEachOnce_paths (h : store.IsSorted) : IsEachOnce store.paths := by
  refine List.pairwise_map.mpr (List.Pairwise.imp ?_ h)
  intro a b hlt hsame
  rw [Path.compare_eq_eq_iff.mpr hsame] at hlt
  cases hlt

/-- A path joins the list only if no spelling of it is there. -/
theorem isEachOnce_touch (h : IsEachOnce touched) (p : Path) :
    IsEachOnce (Mapping.touch touched p) := by
  rw [Mapping.touch]
  split_ifs with hlisted
  · exact h
  · have hnew : ∀ q ∈ touched, ¬ Path.Same q p := by simpa using hlisted
    refine List.pairwise_append.mpr ⟨h, List.pairwise_singleton _ p, ?_⟩
    intro q hq r hr
    rw [List.mem_singleton.mp hr]
    exact hnew q hq

namespace Mapping

/-- What applying a report to a store tells of it. -/
structure Tells (m : Mapping) (report : Report) (mode : ApplyMode) (store : Store)
    (applied : Applied) : Prop where
  once : IsEachOnce applied.touched
  /-- The listed paths are those of the files with findings and, if the whole store is
  replaced, those that had an entry. -/
  listed : ∀ p, (∃ q ∈ applied.touched, Path.Same q p) ↔
    m.Reports report p ∨ mode = .replace ∧ store.contains p = true
  kept : ∀ p, (∀ q ∈ applied.touched, ¬ Path.Same q p) → applied.store.get? p = store.get? p
  processed : applied.processed = true ↔ report.hasFindings = true

/-- Entering files keeps every path listed once. -/
theorem isEachOnce_foldl_enter (files : List (String × List Violation)) {applied : Applied}
    (h : IsEachOnce applied.touched) : IsEachOnce (files.foldl m.enter applied).touched := by
  induction files generalizing applied with
  | nil => exact h
  | cons file files ih =>
    rw [List.foldl_cons]
    apply ih
    exact isEachOnce_touch h (m.localPath file.1)

theorem isEachOnce_start (h : store.IsSorted) (mode : ApplyMode) :
    IsEachOnce (start mode store).touched := by
  cases mode with
  | replace => exact h.isEachOnce_paths
  | merge => exact isEachOnce_nil

theorem processed_foldl_enter (files : List (String × List Violation)) (applied : Applied) :
    (files.foldl m.enter applied).processed = (applied.processed || !files.isEmpty) := by
  induction files generalizing applied with
  | nil => simp
  | cons file files ih =>
    rw [List.foldl_cons, ih]
    simp [enter]

/-- Something is entered exactly if the report has findings. -/
theorem processed_apply (mode : ApplyMode) :
    (m.apply report mode store).processed = report.hasFindings := by
  have hstart : (start mode store).processed = false := by cases mode <;> rfl
  rw [apply, processed_foldl_enter, hstart, Bool.false_or, Report.hasFindings]

theorem tells_apply (h : store.IsSorted) (mode : ApplyMode) :
    m.Tells report mode store (m.apply report mode store) where
  once := isEachOnce_foldl_enter report.findings (isEachOnce_start h mode)
  listed p := by rw [exists_mem_touched_iff, or_comm]
  kept p hp := get?_apply_of_not_touched m report store p (by simpa using hp)
  processed := by rw [processed_apply]

end Mapping

namespace Launch

variable {root target : Path} {settings : Settings} {before : Store} {execution : Execution}

/-- What a run on a file without findings comes to. -/
structure LeavesClean (target : Path) (before store : Store)
    (concluded : Store × Except Failure Summary) : Prop where
  /-- The file is listed, alone, if it had an entry when the run got its turn and the run
  took it away. -/
  touched : ∃ summary, concluded.2 = .ok summary ∧ summary.touched =
    if before.contains target = true ∧ store.contains target = true ∧
      concluded.1.contains target = false then [target.normalize] else []
  kept : ∀ p, ¬ Path.Same target p → concluded.1.get? p = store.get? p
  /-- If nothing is listed, nothing is changed. -/
  unchanged : ∀ summary, concluded.2 = .ok summary → summary.touched = [] → concluded.1 = store

theorem leavesClean_of_hasFindings (hreport : execution.report = .ok report)
    (hclean : report.hasFindings = false) :
    LeavesClean target before store
      ((of root settings before (some target)).conclude execution store) := by
  have htarget : (of root settings before (some target)).target = some target.normalize := rfl
  have hhad : (of root settings before (some target)).hadEntry = before.contains target :=
    before.contains_congr target.normalize_same
  have hcontains : store.contains target.normalize = store.contains target :=
    store.contains_congr target.normalize_same
  rw [conclude_of_report hreport]
  by_cases hentry : before.contains target = true ∧ store.contains target = true
  · have hboth := hentry
    rw [← hhad, ← hcontains] at hboth
    obtain ⟨hstore, htouched⟩ := apply_of_cleared htarget hclean hboth
    have hgone : (store.erase target.normalize).contains target = false := by
      rw [Store.contains_eq_false_iff, Store.get?_erase, if_pos target.normalize_same]
    refine ⟨⟨_, rfl, ?_⟩, ?_, ?_⟩
    · rw [htouched, hstore, if_pos ⟨hentry.1, hentry.2, hgone⟩]
    · intro p hp
      rw [hstore, Store.get?_erase, if_neg]
      intro hsame
      exact hp (target.normalize_same.symm.trans hsame)
    · intro summary hsummary hnone
      obtain rfl := Except.ok.inj hsummary
      rw [htouched] at hnone
      cases hnone
  · have hnotBoth := hentry
    rw [← hhad, ← hcontains] at hnotBoth
    obtain ⟨hstore, htouched⟩ := apply_of_kept htarget hclean hnotBoth
    refine ⟨⟨_, rfl, ?_⟩, fun p _ => by rw [hstore], fun _ _ _ => hstore⟩
    rw [htouched, if_neg]
    rintro ⟨hbefore, hafter, -⟩
    exact hentry ⟨hbefore, hafter⟩

/-- A report that is applied to a store, whatever was done to that before, is told of in
full. If it has no findings, then so is a run on a file that comes to it: whatever the
store was when the run got its turn, the file is listed if its entry goes, and nothing else
is ever changed. -/
theorem tells_what_it_touches (m : Mapping) (report : Report) (ops : List Store.Op) :
    (∀ mode, m.Tells report mode (.after ops) (m.apply report mode (.after ops))) ∧
    ∀ (root target : Path) (settings : Settings) (before : Store) (execution : Execution),
      execution.report = .ok report → report.hasFindings = false →
        LeavesClean target before (.after ops)
          ((of root settings before (some target)).conclude execution (.after ops)) := by
  constructor
  · intro mode
    exact Mapping.tells_apply (Store.isSorted_after ops) mode
  · intro root target settings before execution hreport hclean
    exact leavesClean_of_hasFindings hreport hclean

section Respelled

/-- Two entries, one under a spelling with a `.` in it. -/
def respelledOps : List Store.Op :=
  [.set (.ofString "/p/./a.php") [{ message := "m" }],
    .set (.ofString "/p/b.php") [{ message := "n" }]]

/-- One file is reported as the container sees it and as the host does, another is new. -/
def respelledReport : Report where
  files := [("/app/a.php", { messages := some [{ message := "m" }] }),
    ("/app/c.php", { messages := some [{ message := "n" }] }),
    ("/p//a.php", { messages := some [{ message := "o" }] })]

/-- A run that finds nothing. -/
def noFindingsEnd : Execution :=
  .ok { code := some 0, stdout := "\x7b\"files\":[]\x7d", stderr := "" }

/-- All files of the report and of the store are listed once, and a run on a file without
findings lists the file. -/
theorem tells_what_it_touches_respelledFiles :
    let m : Mapping := ⟨.ofString "/p", "/app"⟩
    let store := Store.after respelledOps
    let replaced := m.apply respelledReport .replace store
    let launch := of (.ofString "/p") {} store (some (.ofString "/p/a.php/"))
    let cleaned := launch.conclude noFindingsEnd store
    (replaced.touched = [.ofString "/p/./a.php", .ofString "/p/b.php", .ofString "/p/c.php"] ∧
      m.Tells respelledReport .replace store replaced) ∧
    noFindingsEnd.report = .ok {} ∧
      cleaned.2.toOption.map (·.touched) = some [.ofString "/p/a.php"] ∧
      LeavesClean (.ofString "/p/a.php/") store store cleaned := by
  have hreport : noFindingsEnd.report = .ok {} :=
    Execution.report_eq_ok_of_toOption (by decide +kernel)
  have happlied := (tells_what_it_touches ⟨.ofString "/p", "/app"⟩ respelledReport respelledOps).1
  have hrun := (tells_what_it_touches ⟨.ofString "/p", ""⟩ {} respelledOps).2
  refine ⟨⟨by decide +kernel, happlied .replace⟩, hreport, by decide +kernel, ?_⟩
  exact hrun _ _ {} _ _ hreport rfl

end Respelled

end Launch

end DiagnosticRelay
