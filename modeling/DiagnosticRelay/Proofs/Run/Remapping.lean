import DiagnosticRelay.Proofs.Path.Relative
import DiagnosticRelay.Proofs.Run.Coverage
import DiagnosticRelay.Proofs.Text.Lossless

/-!
# Files that are given to the analyser and reported by it

The analyser is given a file by its path below the workspace root, and reports it by a path
below the root as it sees it, which is the mount point if there is one. Each way one upper
path is taken off and the other put in its place. The two ways are inverse, however the
paths are spelled, as long as the path below the root is text: the analyser is told text
and reports text, and there is none for other octets.

So a run on a file that finds violations in it makes the entry that a later run on the file
without findings clears.

## Main definitions

* `Settings.visibleRoot`: the workspace root as the analyser sees it.
* `Settings.ReportsAs`: how the analyser reports a file that it was given.

## Main results

* `Mapping.localPath_of_reportsAs`: the reported path is the path of the file.
* `Launch.entry_comes_and_goes`: the entry of a file that is analysed twice.
* `Mapping.localPath_of_octets`: a file whose path is no text.
-/

namespace DiagnosticRelay

variable {root target : Path} {settings : Settings} {reported : String}
  {inner : List Path.Component}

namespace Settings

/-- How runs with some settings turn reported paths into local ones. -/
def mapping (settings : Settings) (root : Path) : Mapping := ⟨root, settings.dockerVolumePath⟩

/-- The workspace root as the analyser sees it. -/
def visibleRoot (settings : Settings) (root : Path) : Path :=
  if settings.dockerVolumePath.isEmpty then root else .ofString settings.dockerVolumePath

/-- The analyser reports a file by the path that it was given, below the root that it
sees, in any spelling. -/
def ReportsAs (settings : Settings) (root target : Path) (reported : String) : Prop :=
  Path.Same (.ofString reported)
    ((settings.visibleRoot root).join (.ofString (operand root target.normalize)))

/-- The mount point is empty or absolute. -/
def HasMount (settings : Settings) : Prop :=
  settings.dockerVolumePath.isEmpty = true ∨
    (Path.ofString settings.dockerVolumePath).isAbsolute = true

/-- The analyser is given what is below the root. -/
theorem components_operand (hroot : root.isAbsolute = true)
    (hinside : target.components = root.components ++ inner)
    (htext : ∃ text, (target.normalize.relativeTo root).octets = Octets.ofString text) :
    (Path.ofString (operand root target.normalize)).components = inner := by
  obtain ⟨text, htext⟩ := htext
  have hoperand :
      Path.ofString (operand root target.normalize) = target.normalize.relativeTo root := by
    rw [operand, Path.display, htext, Octets.toStringLossy_ofString, Path.ofString, ← htext]
  have hbelow : target.normalize.components = root.components ++ inner := by
    rw [Path.components_normalize, hinside]
  rw [hoperand, Path.components_relativeTo (Path.components_ne_nil_of_isAbsolute hroot),
    Path.componentsBelow, if_pos ⟨inner, hbelow.symm⟩, hbelow, List.drop_left]

theorem isAbsolute_visibleRoot (hroot : root.isAbsolute = true) (hmount : settings.HasMount) :
    (settings.visibleRoot root).isAbsolute = true := by
  rw [visibleRoot]
  split_ifs with hempty
  · exact hroot
  · exact hmount.resolve_left hempty

end Settings

/-- The analyser reports a file that it was given by a path that stands for the file. -/
theorem Mapping.localPath_of_reportsAs (hroot : root.isAbsolute = true)
    (hinside : root.components <+: target.components) (hmount : settings.HasMount)
    (htext : ∃ text, (target.normalize.relativeTo root).octets = Octets.ofString text)
    (hreported : settings.ReportsAs root target reported) :
    (settings.mapping root).localPath reported = target.normalize := by
  obtain ⟨inner, hinside⟩ := hinside
  have hinner := Path.isInner_of_below (Path.components_ne_nil_of_isAbsolute hroot) hinside.symm
  have hoperand := Settings.components_operand hroot hinside.symm htext
  have hvisible := Settings.isAbsolute_visibleRoot hroot hmount
  -- Spellings do not matter: what counts are the components below either root.
  have hcomponents : (Path.ofString reported).components =
      (settings.visibleRoot root).components ++ inner := by
    rw [hreported, Path.components_join _ (by rwa [Path.IsInnerPath, hoperand]), hoperand]
  rw [localPath, belowMount?, Settings.mapping]
  rw [Settings.visibleRoot] at hcomponents hvisible
  cases hempty : settings.dockerVolumePath.isEmpty with
  | true =>
    rw [hempty, if_pos rfl] at hcomponents
    exact Path.normalize_congr (hcomponents.trans hinside)
  | false =>
    rw [hempty, if_neg Bool.false_ne_true] at hcomponents hvisible
    obtain ⟨rest, hrest, hbelow⟩ :=
      Path.exists_stripPrefix? (Path.components_ne_nil_of_isAbsolute hvisible) hcomponents
    simp only [Bool.false_eq_true, if_false, hrest]
    refine Path.normalize_congr ?_
    rw [Path.Same, Path.components_join root (by rwa [Path.IsInnerPath, hbelow]), hbelow, hinside]

namespace Launch

variable {store : Store} {spelled p : Path} {execution : Execution} {report : Report}

/-- A file is given to the analyser in one spelling. -/
theorem commandLine_of_same (hspelled : Path.Same spelled target) :
    (of root settings store (some spelled)).commandLine =
      settings.commandLine root (some target.normalize) := by
  rw [commandLine, of, Option.map_some, Path.normalize_congr hspelled]

/-- A run on a file that finds violations under a reported path leaves an entry of the path
that this stands for. If it finds none elsewhere, it leaves all other entries. -/
theorem conclude_of_reported (store : Store) (spelled : Path)
    (hlocal : (settings.mapping root).localPath reported = target.normalize)
    (hreport : execution.report = .ok report)
    (hfound : ∃ violations, (reported, violations) ∈ report.findings) :
    let after := ((of root settings store (some spelled)).conclude execution store).1
    after.contains target = true ∧ (settings.mapping root).Says report target (after.get? target) ∧
      ((∀ file ∈ report.findings, file.1 = reported) →
        ∀ p, ¬ Path.Same target p → after.get? p = store.get? p) := by
  obtain ⟨violations, hmem⟩ := hfound
  have hstands : Path.Same ((settings.mapping root).localPath reported) target := by
    rw [hlocal]
    exact target.normalize_same
  have hreports : (settings.mapping root).Reports report target :=
    Mapping.reports_iff.mpr ⟨_, hmem, hstands⟩
  have hfindings : report.hasFindings = true := by
    by_contra hclean
    exact Mapping.not_reports_of_clean (Bool.eq_false_iff.mpr hclean) hreports
  have hafter : ((of root settings store (some spelled)).conclude execution store).1 =
      ((settings.mapping root).apply report .merge store).store := by
    rw [conclude_of_report hreport]
    exact (apply_of_findings rfl hfindings).1
  obtain ⟨entry, hentry⟩ := Option.isSome_iff_exists.mp (Mapping.entryOf_isSome_iff.mpr hreports)
  have hsays := Mapping.says_entryOf (settings.mapping root) report target
    (Execution.isOrdered_of_report hreport)
  simp only [hafter, Store.contains_eq_isSome_get?, Mapping.get?_apply_merge]
  rw [hentry] at hsays ⊢
  refine ⟨rfl, hsays, fun honly p hp => ?_⟩
  have hnone : (settings.mapping root).entryOf report p = none := by
    rw [Mapping.entryOf_eq_none_iff, Mapping.reports_iff]
    rintro ⟨file, hfile, hsame⟩
    rw [honly file hfile] at hsame
    exact hp (hstands.symm.trans hsame)
  rw [hnone, Option.none_or]

/-- A run on a file without violations clears the entry that the file has, leaves all
others, and lists the file alone. -/
theorem conclude_of_clean (hspelled : Path.Same spelled target)
    (hentry : store.contains target = true) (hreport : execution.report = .ok report)
    (hclean : report.hasFindings = false) :
    let after := (of root settings store (some spelled)).conclude execution store
    after.1.get? target = none ∧ (∀ p, ¬ Path.Same target p → after.1.get? p = store.get? p) ∧
      ∃ summary, after.2 = .ok summary ∧ summary.touched = [target.normalize] := by
  have hnormal : spelled.normalize = target.normalize := Path.normalize_congr hspelled
  have hcontains : store.contains spelled.normalize = true := by
    rw [hnormal, store.contains_congr target.normalize_same]
    exact hentry
  have hhad : (of root settings store (some spelled)).hadEntry = true := hcontains
  obtain ⟨hstore, htouched⟩ := apply_of_cleared (l := of root settings store (some spelled)) rfl
    hclean ⟨hhad, hcontains⟩
  rw [hnormal] at hstore htouched
  simp only [conclude_of_report hreport, hstore, Store.get?_erase]
  refine ⟨if_pos target.normalize_same, fun p hp => if_neg fun hsame => ?_, _, rfl, htouched⟩
  exact hp (target.normalize_same.symm.trans hsame)

/-- A file below an absolute root is given to the analyser, which reports it below the root
that it sees, and the path below the root is text. Then the reported path stands for the
file. So a run that finds violations under it leaves an entry of the file, with what the
report says and beside others only if it reports others, and a run right after that finds
none clears that entry and lists exactly the file, whatever the spellings of the file. -/
theorem entry_comes_and_goes (hroot : root.isAbsolute = true)
    (hinside : root.components <+: target.components) (hmount : settings.HasMount)
    (htext : ∃ text, (target.normalize.relativeTo root).octets = Octets.ofString text)
    (hreported : settings.ReportsAs root target reported) :
    (settings.mapping root).localPath reported = target.normalize ∧
    ∀ (store : Store) (spelled respelled : Path) (again : Settings) (first second : Execution)
      (report clean : Report), Path.Same spelled target → Path.Same respelled target →
      first.report = .ok report → (∃ violations, (reported, violations) ∈ report.findings) →
      second.report = .ok clean → clean.hasFindings = false →
      let found := ((of root settings store (some spelled)).conclude first store).1
      let cleared := (of root again found (some respelled)).conclude second found
      (of root settings store (some spelled)).commandLine =
        settings.commandLine root (some target.normalize) ∧
      (found.contains target = true ∧
        (settings.mapping root).Says report target (found.get? target) ∧
        ((∀ file ∈ report.findings, file.1 = reported) →
          ∀ p, ¬ Path.Same target p → found.get? p = store.get? p)) ∧
      cleared.1.get? target = none ∧
      (∀ p, ¬ Path.Same target p → cleared.1.get? p = found.get? p) ∧
      ∃ summary, cleared.2 = .ok summary ∧ summary.touched = [target.normalize] := by
  have hlocal := Mapping.localPath_of_reportsAs hroot hinside hmount htext hreported
  refine ⟨hlocal, ?_⟩
  intro store spelled respelled again first second report clean hspelled hrespelled hfirst hfound
    hsecond hclean found cleared
  have hentry := conclude_of_reported store spelled hlocal hfirst hfound
  exact ⟨commandLine_of_same hspelled, hentry, conclude_of_clean hrespelled hentry.1 hsecond hclean⟩

section Container

/-- A workspace root with a separator too many. -/
def spelledRoot : Path := .ofString "/srv//site/"

/-- The workspace is mounted in a container, and the mount point has a `.` at its end. -/
def containerSettings : Settings := { dockerVolumePath := "/app/." }

/-- A file of the workspace. -/
def climbingFile : Path := .ofString "/srv/./site/src/../a.php"

/-- The analyser finds a violation in the file. -/
def containerEnd : Execution := .ok {
  code := some 1
  stdout := "\x7b\"files\":\x7b\"/app/src/../a.php\":\x7b\"messages\":[\x7b\"message\":\"m\"\x7d]\x7d\x7d\x7d"
  stderr := "" }

/-- The analyser finds nothing. -/
def nothingFound : Execution := .ok { code := some 0, stdout := "\x7b\"files\":[]\x7d", stderr := "" }

/-- The entry of the file comes and goes, though root, mount point and file are all spelled
differently. -/
theorem entry_comes_and_goes_climbingFile :
    (containerSettings.mapping spelledRoot).localPath "/app/src/../a.php" =
        .ofString "/srv/site/src/../a.php" ∧
      ∃ found cleared : Store, found.contains climbingFile = true ∧
        cleared.contains climbingFile = false ∧
        ((of spelledRoot containerSettings .empty (some climbingFile)).conclude containerEnd
          .empty).1 = found ∧
        ((of spelledRoot {} found (some (.ofString "/srv/site/src//../a.php"))).conclude
          nothingFound found).1 = cleared := by
  have hread : (containerEnd.report.toOption.map fun report => report.findings.map (·.1)) =
      some ["/app/src/../a.php"] := by decide +kernel
  obtain ⟨report, hreport, hfiles⟩ := Option.map_eq_some_iff.mp hread
  have hfound : ∃ violations, ("/app/src/../a.php", violations) ∈ report.findings := by
    obtain ⟨⟨_, violations⟩, hmem, rfl⟩ := List.mem_map.mp
      (hfiles ▸ List.mem_cons_self : "/app/src/../a.php" ∈ report.findings.map (·.1))
    exact ⟨violations, hmem⟩
  have htext : ∃ text, (climbingFile.normalize.relativeTo spelledRoot).octets =
      Octets.ofString text := ⟨"src/../a.php", by decide +kernel⟩
  have hreported : containerSettings.ReportsAs spelledRoot climbingFile "/app/src/../a.php" :=
    (by decide +kernel : Path.Same _ _)
  obtain ⟨hlocal, hruns⟩ := entry_comes_and_goes (by decide +kernel) (by decide +kernel)
    (.inr (by decide +kernel)) htext hreported
  obtain ⟨-, ⟨hentry, -, -⟩, hnone, -, -⟩ := hruns .empty climbingFile
    (.ofString "/srv/site/src//../a.php") {} containerEnd nothingFound report {} rfl
    (by decide +kernel) (Execution.report_eq_ok_of_toOption hreport) hfound
    (Execution.report_eq_ok_of_toOption (by decide +kernel)) rfl
  exact ⟨hlocal.trans (by decide +kernel), _, _, hentry, (Store.contains_eq_false_iff ..).mpr hnone,
    rfl, rfl⟩

end Container

end Launch

/-- A file whose name is no text is given to the analyser by another name. What the
analyser reports then stands for a path that is not the file. -/
theorem Mapping.localPath_of_octets :
    ∃ (root target : Path) (settings : Settings) (reported : String),
      root = .ofString "/p" ∧ target = ⟨[0x2F, 0x70, 0x2F, 0xFF, 0x2E, 0x70, 0x68, 0x70]⟩ ∧
      settings = {} ∧ reported = "/p/\ufffd.php" ∧
      root.isAbsolute = true ∧ root.components <+: target.components ∧ settings.HasMount ∧
      Path.ofString reported =
        (settings.visibleRoot root).join (.ofString (Settings.operand root target.normalize)) ∧
      (settings.mapping root).localPath reported ≠ target.normalize :=
  ⟨_, _, _, _, rfl, rfl, rfl, rfl, by decide +kernel, by decide +kernel, .inl rfl,
    by decide +kernel, by decide +kernel⟩

end DiagnosticRelay
