import DiagnosticRelay.Proofs.List.Last
import DiagnosticRelay.Proofs.Run.Coverage

/-!
# Runs one after another

Runs that do not overlap leave a store that can be read off their history, path by
path: the last run that succeeded and decided the path says what its entry is, and
a path that no run decided still has its first entry. Settings, targets and modes
may change from run to run.

## Main definitions

* `Pass`: a run with the settings in force and what becomes of its process.
* `Pass.replay`: the store after a history.
* `Pass.Decides`: a run succeeds and decides a path.

## Main results

* `Pass.entry_replay`: entries after a history.
-/

namespace DiagnosticRelay

/-! ## Histories -/

/-- A run that meets no other: the settings in force, its target, and what becomes of
its process. -/
structure Pass where
  settings : Settings
  target : Option Path
  execution : Execution
  deriving DecidableEq

namespace Pass

/-- How the reported paths of a run become local ones. -/
def mapping (root : Path) (pass : Pass) : Mapping := ⟨root, pass.settings.dockerVolumePath⟩

/-- The store after a run. -/
def after (root : Path) (store : Store) (pass : Pass) : Store :=
  ((Launch.of root pass.settings store pass.target).conclude pass.execution store).1

/-- The store after a history of runs. -/
def replay (root : Path) (initial : Store) (passes : List Pass) : Store :=
  passes.foldl (after root) initial

/-- A run succeeds and decides a path. -/
def Decides (root p : Path) (pass : Pass) : Prop :=
  ∃ report, pass.execution.report = .ok report ∧
    (pass.mapping root).Covers (pass.target.map Path.normalize) report p

variable {root p : Path} {store : Store} {pass : Pass}

theorem replay_concat (initial : Store) (passes : List Pass) :
    replay root initial (passes ++ [pass]) = after root (replay root initial passes) pass := by
  rw [replay, List.foldl_append]
  rfl

/-- A run that decides a path leaves what its report says. -/
theorem get?_after_of_decides {report : Report} (h : pass.execution.report = .ok report)
    (hcovers : (pass.mapping root).Covers (pass.target.map Path.normalize) report p) :
    (after root store pass).get? p = (pass.mapping root).entryOf report p := by
  rw [after, Launch.conclude_of_report h]
  exact Launch.get?_apply_of_covers hcovers (Launch.not_overlooks_of root pass.settings pass.target)

/-- A run that does not decide a path leaves its entry. -/
theorem get?_after_of_not_decides (h : ¬ pass.Decides root p) :
    (after root store pass).get? p = store.get? p := by
  rw [after]
  cases hreport : pass.execution.report with
  | error failure => rw [Launch.conclude_of_failure hreport]
  | ok report =>
    rw [Launch.conclude_of_report hreport]
    exact Launch.get?_apply_of_not_covers fun hcovers => h ⟨report, hreport, hcovers⟩

/-- Runs that do not decide a path leave its entry. -/
theorem get?_replay_of_not_decides {passes : List Pass}
    (h : ∀ pass ∈ passes, ¬ pass.Decides root p) :
    (replay root store passes).get? p = store.get? p := by
  induction passes generalizing store with
  | nil => rfl
  | cons pass passes ih =>
    obtain ⟨hpass, hpasses⟩ := List.forall_mem_cons.mp h
    change (replay root (after root store pass) passes).get? p = _
    rw [ih hpasses, get?_after_of_not_decides hpass]

/-- The last run that decides a path leaves what its report says. -/
theorem says_replay_of_isLast {passes : List Pass} (h : IsLast (Decides root p) passes pass) :
    ∃ report, pass.execution.report = .ok report ∧
      (pass.mapping root).Says report p ((replay root store passes).get? p) := by
  obtain ⟨earlier, later, rfl, ⟨report, hreport, hcovers⟩, hlater⟩ := h
  refine ⟨report, hreport, ?_⟩
  rw [replay, List.foldl_append, List.foldl_cons]
  change (pass.mapping root).Says report p ((replay root (after root _ pass) later).get? p)
  rw [get?_replay_of_not_decides hlater, get?_after_of_decides hreport hcovers]
  exact Mapping.says_entryOf _ _ _ (Execution.isOrdered_of_report hreport)

/-- After runs that do not overlap, the entry of a path is what the last run that
succeeded and decided it says; a path that none decided has its first entry. -/
theorem entry_replay (root : Path) (initial : Store) (passes : List Pass) (p : Path) :
    (∃ pass report, IsLast (Decides root p) passes pass ∧ pass.execution.report = .ok report ∧
        (pass.mapping root).Says report p ((replay root initial passes).get? p)) ∨
      (∀ pass ∈ passes, ¬ pass.Decides root p) ∧
        (replay root initial passes).get? p = initial.get? p := by
  induction passes using List.reverseRecOn with
  | nil => exact .inr ⟨by simp, rfl⟩
  | append_singleton passes pass ih =>
    rw [replay_concat]
    -- Only the newest run matters if it decides the path, and it does not matter otherwise.
    by_cases hdecides : pass.Decides root p
    · obtain ⟨report, hreport, hcovers⟩ := hdecides
      refine .inl ⟨pass, report, isLast_concat ⟨report, hreport, hcovers⟩, hreport, ?_⟩
      rw [get?_after_of_decides hreport hcovers]
      exact Mapping.says_entryOf _ _ _ (Execution.isOrdered_of_report hreport)
    · rw [get?_after_of_not_decides hdecides]
      rcases ih with ⟨last, report, hlast, hreport, hsays⟩ | ⟨hnone, hinitial⟩
      · exact .inl ⟨last, report, hlast.concat hdecides, hreport, hsays⟩
      · exact .inr ⟨forall_not_concat hnone hdecides, hinitial⟩

section MixedRuns

/-- The root of a workspace that is mounted in a container. -/
def mixedRoot : Path := .ofString "/p"

/-- A run on the project finds violations in two files, one of which it names twice. -/
def projectRun : Pass where
  settings := { dockerVolumePath := "/app" }
  target := none
  execution := .ok {
    code := some 1
    stdout := "\x7b\"files\":\x7b" ++
      "\"/p/a.php\":\x7b\"messages\":[\x7b\"message\":\"n\",\"line\":3\x7d]\x7d," ++
      "\"/app/a.php\":\x7b\"messages\":[\x7b\"message\":\"m\"\x7d]\x7d," ++
      "\"/app/b.php\":\x7b\"messages\":[\x7b\"message\":\"m\"\x7d]\x7d\x7d\x7d"
    stderr := "" }

/-- A run on the other file finds nothing. -/
def fileRun : Pass where
  settings := {}
  target := some (.ofString "/p/./b.php")
  execution := .ok { code := some 0, stdout := "\x7b\"files\":[]\x7d", stderr := "" }

/-- Both runs, and one on the project for which there is no analyser. -/
def mixedRuns : List Pass :=
  [projectRun, fileRun, { settings := {}, target := none, execution := .error "not there" }]

/-- The file that is named twice has what stands at the greater name, and the other file has
no entry any more. -/
theorem entry_replay_mixedRuns :
    let store := replay mixedRoot .empty mixedRuns
    let found : List Diagnostic := [.ofViolation { message := "n", line := some 3 }]
    store.get? (.ofString "/p/a.php") = some found ∧
      (∃ pass report, IsLast (Decides mixedRoot (.ofString "/p/a.php")) mixedRuns pass ∧
        pass.execution.report = .ok report ∧
        (pass.mapping mixedRoot).Says report (.ofString "/p/a.php") (some found)) ∧
      store.get? (.ofString "/p/b.php") = none ∧
      ∃ pass report, IsLast (Decides mixedRoot (.ofString "/p/b.php")) mixedRuns pass ∧
        pass.execution.report = .ok report ∧
        (pass.mapping mixedRoot).Says report (.ofString "/p/b.php") none := by
  have hread : projectRun.execution.report.toOption.isSome = true := by decide +kernel
  obtain ⟨report, hreport⟩ := Option.isSome_iff_exists.mp hread
  have hreport := Execution.report_eq_ok_of_toOption hreport
  -- The run on the project decides every path, so neither file has its first entry.
  have hdecided (p : Path) : ¬ ∀ pass ∈ mixedRuns, ¬ pass.Decides mixedRoot p := fun hnone =>
    hnone projectRun List.mem_cons_self ⟨report, hreport, trivial⟩
  have hfound : (replay mixedRoot .empty mixedRuns).get? (.ofString "/p/a.php") =
      some [.ofViolation { message := "n", line := some 3 }] := by decide +kernel
  have hcleared : (replay mixedRoot .empty mixedRuns).get? (.ofString "/p/b.php") = none := by
    decide +kernel
  have hfirst := (entry_replay mixedRoot .empty mixedRuns (.ofString "/p/a.php")).resolve_right
    fun hinitial => hdecided _ hinitial.1
  have hsecond := (entry_replay mixedRoot .empty mixedRuns (.ofString "/p/b.php")).resolve_right
    fun hinitial => hdecided _ hinitial.1
  rw [hfound] at hfirst
  rw [hcleared] at hsecond
  exact ⟨hfound, hfirst, hcleared, hsecond⟩

end MixedRuns

end Pass

end DiagnosticRelay
