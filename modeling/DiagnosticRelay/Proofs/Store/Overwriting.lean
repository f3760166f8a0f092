import DiagnosticRelay.Proofs.Store.Listing

/-!
# Reported files that share a local path

A report may name one file twice, as the container sees it and as the host does, or in two
spellings. Each is entered for the local path, and entering replaces what was there. So of
the files with findings that share a local path the last one is kept, and the others are
overwritten. Nothing else is lost: the store has one record for each violation of the files
that are kept, and it has as many records as the report has violations exactly if no file
is overwritten.

## Main definitions

* `Store.total`, `Report.total`: how many records and violations there are.
* `Mapping.IsOverwritten`, `Mapping.kept`: files that share a local path.
* `Mapping.HasRecord`: the record of a violation is in a store.

## Main results

* `Mapping.get?_apply_of_kept`: the records of files that are kept.
* `Mapping.listing_perm_kept`: the violations in the store are theirs.
* `Mapping.total_apply_eq_iff`: when no record is missing.
* `Mapping.kept_findings_are_recorded`: reports that are read and applied.
* `Mapping.finding_lost`: a report that names a file twice.
-/

namespace DiagnosticRelay

/-- How many records a store has. -/
def Store.total (s : Store) : Nat := (s.entries.flatMap Prod.snd).length

/-- How many violations some files have. -/
def violationCount (files : List (String × List Violation)) : Nat :=
  (files.flatMap Prod.snd).length

/-- How many violations a report has. -/
def Report.total (report : Report) : Nat :=
  (report.files.flatMap fun file => file.2.violations).length

/-- Files without findings have no violations to count. -/
theorem Report.violationCount_findings (report : Report) :
    violationCount report.findings = report.total := by
  rw [violationCount, findings, total]
  induction report.files with
  | nil => rfl
  | cons file files ih =>
    rw [List.map_cons, List.flatMap_cons, List.length_append, ← ih, List.filter_cons]
    split_ifs with hfile
    · rw [List.flatMap_cons, List.length_append]
    · have hnone : file.2.violations = [] := by simpa using hfile
      rw [hnone, List.length_nil, Nat.zero_add]

theorem Report.mem_findings_of_mem {report : Report} {file : String × FileResult} {v : Violation}
    (hfile : file ∈ report.files) (hv : v ∈ file.2.violations) :
    (file.1, file.2.violations) ∈ report.findings := by
  refine List.mem_filter.mpr ⟨List.mem_map.mpr ⟨file, hfile, rfl⟩, ?_⟩
  have hne := List.ne_nil_of_mem hv
  simpa using hne

namespace Mapping

variable {m : Mapping} {report : Report} {store : Store} {file other : String × List Violation}

/-! ## Files that are kept -/

/-- A later file with findings stands for the same local path. -/
def IsOverwritten (m : Mapping) (report : Report) (reported : String) : Prop :=
  ∃ other ∈ report.findings, Octets.ofString reported < Octets.ofString other.1 ∧
    m.localPath other.1 = m.localPath reported

instance : DecidablePred (m.IsOverwritten report) := fun reported =>
  inferInstanceAs (Decidable (∃ other ∈ report.findings,
    Octets.ofString reported < Octets.ofString other.1 ∧
      m.localPath other.1 = m.localPath reported))

/-- The files with findings that are not overwritten. -/
def kept (m : Mapping) (report : Report) : List (String × List Violation) :=
  report.findings.filter fun file => ¬ m.IsOverwritten report file.1

/-- A file of the report with findings that is not overwritten. -/
theorem mem_kept_iff :
    file ∈ m.kept report ↔ file ∈ report.findings ∧ ¬ m.IsOverwritten report file.1 := by
  rw [kept, List.mem_filter, decide_eq_true_iff]

/-- A file is kept if those that share its local path come before it. -/
theorem mem_kept_of_last (hfile : file ∈ report.findings)
    (hothers : ∀ other ∈ report.findings, m.localPath other.1 = m.localPath file.1 →
      other = file ∨ Octets.ofString other.1 < Octets.ofString file.1) :
    file ∈ m.kept report := by
  refine mem_kept_iff.mpr ⟨hfile, ?_⟩
  rintro ⟨other, hother, hlt, hpath⟩
  rcases hothers other hother hpath with rfl | hgt
  · exact List.lt_irrefl _ hlt
  · exact List.lt_asymm hlt hgt

/-- The files that are kept are those that come last for their local paths. -/
theorem lastOn?_of_mem_kept (h : report.IsOrdered) (hfile : file ∈ m.kept report) :
    m.lastOn? (m.localPath file.1) report.findings = some file := by
  obtain ⟨hmem, hkept⟩ := mem_kept_iff.mp hfile
  cases hlast : m.lastOn? (m.localPath file.1) report.findings with
  | none => exact absurd (Path.Same.refl _) (lastOn?_eq_none_iff.mp hlast file hmem)
  | some last =>
    obtain ⟨hlastMem, hsame, hothers⟩ := lastOn?_eq_some h hlast
    rcases hothers file hmem (Path.Same.refl _) with rfl | hlt
    · rfl
    · exact absurd ⟨last, hlastMem, hlt, localPath_eq_of_same hsame⟩ hkept

theorem mem_kept_of_lastOn? (h : report.IsOrdered) {p : Path}
    (hlast : m.lastOn? p report.findings = some file) : file ∈ m.kept report := by
  obtain ⟨hmem, hsame, hothers⟩ := lastOn?_eq_some h hlast
  apply mem_kept_of_last hmem
  intro other hother hpath
  exact hothers other hother (by rwa [hpath])

/-- Every local path of a file with findings is that of one that is kept. -/
theorem exists_mem_kept (h : report.IsOrdered) (hfile : file ∈ report.findings) :
    ∃ last ∈ m.kept report, m.localPath last.1 = m.localPath file.1 := by
  cases hlast : m.lastOn? (m.localPath file.1) report.findings with
  | none => exact absurd (Path.Same.refl _) (lastOn?_eq_none_iff.mp hlast file hfile)
  | some last =>
    obtain ⟨-, hsame, -⟩ := lastOn?_eq_some h hlast
    exact ⟨last, mem_kept_of_lastOn? h hlast, localPath_eq_of_same hsame⟩

/-- Files that are kept have local paths of their own. -/
theorem eq_of_mem_kept (h : report.IsOrdered) (hfile : file ∈ m.kept report)
    (hother : other ∈ m.kept report) (hpath : m.localPath file.1 = m.localPath other.1) :
    file = other := by
  have hlast := lastOn?_of_mem_kept h hfile
  rw [hpath, lastOn?_of_mem_kept h hother] at hlast
  exact (Option.some.inj hlast).symm

/-! ## Records -/

/-- The record of a violation of a reported file is in a store, under the local path. -/
def HasRecord (m : Mapping) (store : Store) (reported : String) (v : Violation) : Prop :=
  ∃ ds, store.get? (m.localPath reported) = some ds ∧ Diagnostic.ofViolation v ∈ ds

/-- A file that is kept has its records, in order, and no others. -/
theorem get?_apply_of_kept (h : report.IsOrdered) (hfile : file ∈ m.kept report)
    (mode : ApplyMode) :
    (m.apply report mode store).store.get? (m.localPath file.1) =
      some (file.2.map Diagnostic.ofViolation) := by
  have hentry : m.entryOf report (m.localPath file.1) =
      some (file.2.map Diagnostic.ofViolation) := by
    rw [entryOf, lastOn?_of_mem_kept h hfile, Option.map_some]
  cases mode with
  | replace => rw [get?_apply_replace, hentry]
  | merge => rw [get?_apply_merge, hentry, Option.some_or]

/-- The violations in the store after a report are those of the files that are kept. -/
theorem listing_perm_kept (h : report.IsOrdered) :
    (m.listing report).Perm ((m.kept report).map fun file => (m.localPath file.1, file.2)) := by
  have hlisting := m.isListing_listing h
  -- Neither list has anything twice, so it is enough to compare what is in them.
  have hnodup : (m.listing report).Nodup := by
    refine List.Pairwise.imp ?_ hlisting.increasing
    rintro a b hlt rfl
    rw [Path.compare_eq_eq_iff.mpr (Path.Same.refl _)] at hlt
    cases hlt
  have hkept : (m.kept report).Nodup := by
    refine List.Nodup.filter _ (List.Pairwise.imp ?_ h.pairwise_findings)
    rintro a b hlt rfl
    exact List.lt_irrefl _ hlt
  refine (List.perm_ext_iff_of_nodup hnodup (hkept.map_on ?_)).mpr ?_
  · intro a ha b hb heq
    exact eq_of_mem_kept h ha hb (congrArg Prod.fst heq)
  · have winner (e : Path × List Violation) (he : e ∈ m.listing report) :
        ∃ file ∈ m.kept report, e = (m.localPath file.1, file.2) := by
      obtain ⟨name, hlists, hpath, hothers⟩ := hlisting.winning e he
      refine ⟨(name, e.2), mem_kept_of_last (Report.mem_findings_iff.mpr hlists) ?_,
        Prod.ext hpath rfl⟩
      intro other hother hsame
      exact hothers other.1 other.2 (Report.mem_findings_iff.mp hother) (hsame.trans hpath.symm)
    intro e
    rw [List.mem_map]
    constructor
    · intro he
      obtain ⟨file, hfile, rfl⟩ := winner e he
      exact ⟨file, hfile, rfl⟩
    · rintro ⟨file, hfile, rfl⟩
      obtain ⟨e, he, hpath⟩ := hlisting.complete file.1 file.2
        (Report.mem_findings_iff.mp (mem_kept_iff.mp hfile).1)
      obtain ⟨last, hlast, rfl⟩ := winner e he
      rwa [← eq_of_mem_kept h hlast hfile hpath]

/-! ## Totals -/

/-- After a report on the whole project there is one record for each violation of the files
that are kept. -/
theorem total_apply (h : report.IsOrdered) :
    (m.apply report .replace store).store.total = violationCount (m.kept report) := by
  have hstore : (m.apply report .replace store).store = m.storeOf report := by
    rw [store_apply, storeOf]
    rfl
  have hlisting : (m.listing report).Perm _ := listing_perm_kept h
  have hcounts := (hlisting.flatMap_right Prod.snd).length_eq
  rw [hstore, Store.total, m.entries_storeOf, violationCount]
  simpa [List.flatMap_map, List.length_flatMap] using hcounts

/-- What is overwritten makes up the difference. -/
theorem violationCount_kept_add (m : Mapping) (report : Report) :
    violationCount (m.kept report) +
      violationCount (report.findings.filter fun file => m.IsOverwritten report file.1) =
        violationCount report.findings := by
  have hperm := List.filter_append_perm (fun file => decide (¬ m.IsOverwritten report file.1))
    report.findings
  have hcounts := (hperm.flatMap_right Prod.snd).length_eq
  rw [List.flatMap_append, List.length_append] at hcounts
  simpa [violationCount, kept] using hcounts

/-- No record is missing exactly if no file is overwritten. -/
theorem total_apply_eq_iff (h : report.IsOrdered) :
    (m.apply report .replace store).store.total = report.total ↔
      ∀ file ∈ report.findings, ¬ m.IsOverwritten report file.1 := by
  have hsum := m.violationCount_kept_add report
  rw [total_apply h, ← report.violationCount_findings]
  constructor
  · intro htotal file hfile hover
    -- A file that is overwritten has violations, and they are not counted.
    have hpos : 0 < violationCount
        (report.findings.filter fun file => m.IsOverwritten report file.1) := by
      have hmem : file ∈ report.findings.filter fun file => m.IsOverwritten report file.1 :=
        List.mem_filter.mpr ⟨hfile, decide_eq_true hover⟩
      obtain ⟨v, hv⟩ := List.exists_mem_of_ne_nil _ (Report.ne_nil_of_mem_findings hfile)
      exact List.length_pos_of_mem (List.mem_flatMap.mpr ⟨file, hmem, hv⟩)
    omega
  · intro hnone
    -- Nothing is left out of what is kept.
    have hkept : m.kept report = report.findings := by
      rw [kept, List.filter_eq_self]
      intro file hfile
      exact decide_eq_true (hnone file hfile)
    rw [hkept]

/-! ## Reports that are read and applied -/

/-- When a report that was read is applied, in either way, all findings of the files that
are not overwritten are recorded under their local paths, and each file that is overwritten
shares its path with one that is not, whose records are all that is there. When the whole
store is replaced, there is one record for each violation of the files that are kept. These
are all violations of the report exactly if no file is overwritten. -/
theorem kept_findings_are_recorded {text : String} {report : Report}
    (hread : Report.parse text = .ok report) (m : Mapping) (store : Store) :
    (∀ mode, ∀ file ∈ report.files, ¬ m.IsOverwritten report file.1 →
      ∀ v ∈ file.2.violations, m.HasRecord (m.apply report mode store).store file.1 v) ∧
    (∀ mode, ∀ file ∈ report.findings, ∃ last ∈ m.kept report,
      m.localPath last.1 = m.localPath file.1 ∧
        (m.apply report mode store).store.get? (m.localPath file.1) =
          some (last.2.map Diagnostic.ofViolation)) ∧
    (m.apply report .replace store).store.total = violationCount (m.kept report) ∧
    ((m.apply report .replace store).store.total = report.total ↔
      ∀ file ∈ report.findings, ¬ m.IsOverwritten report file.1) := by
  have hordered := Report.isOrdered_of_parse hread
  refine ⟨?_, ?_, total_apply hordered, total_apply_eq_iff hordered⟩
  · intro mode file hfile hover v hv
    have hkept := mem_kept_iff.mpr ⟨Report.mem_findings_of_mem hfile hv, hover⟩
    exact ⟨_, get?_apply_of_kept hordered hkept mode, List.mem_map_of_mem hv⟩
  · intro mode file hfile
    obtain ⟨last, hlast, hpath⟩ := exists_mem_kept hordered hfile
    refine ⟨last, hlast, hpath, ?_⟩
    rw [← hpath]
    exact get?_apply_of_kept hordered hlast mode

section Twice

/-- The workspace is mounted in a container. -/
def mountedMapping : Mapping := ⟨.ofString "/p", "/app"⟩

/-- One file is reported as the container sees it and as the host does. -/
def twiceText : String :=
  "\x7b\"files\":\x7b\"/app/a.php\":\x7b\"messages\":[\x7b\"message\":\"m\"\x7d]\x7d," ++
    "\"/p/a.php\":\x7b\"messages\":[\x7b\"message\":\"n\"\x7d]\x7d\x7d\x7d"

/-- The report with that text. -/
def twiceReport : Report where
  files := [("/app/a.php", { messages := some [{ message := "m" }] }),
    ("/p/a.php", { messages := some [{ message := "n" }] })]

/-- What was found under the name that the host has for the file is recorded, and nothing
else is. -/
theorem kept_findings_are_recorded_twiceNamed :
    Report.parse twiceText = .ok twiceReport ∧
      mountedMapping.kept twiceReport = [("/p/a.php", [{ message := "n" }])] ∧
      (mountedMapping.apply twiceReport .replace .empty).store.total = 1 ∧
      mountedMapping.HasRecord (mountedMapping.apply twiceReport .merge .empty).store "/p/a.php"
        { message := "n" } := by
  have hread : Report.parse twiceText = .ok twiceReport :=
    eq_ok_of_toOption_eq_some (by decide +kernel)
  have hkept : mountedMapping.kept twiceReport = [("/p/a.php", [{ message := "n" }])] := by
    decide +kernel
  obtain ⟨hrecorded, -, htotal, -⟩ := kept_findings_are_recorded hread mountedMapping .empty
  refine ⟨hread, hkept, ?_, ?_⟩
  · rw [htotal, hkept]
    rfl
  · exact hrecorded .merge ("/p/a.php", { messages := some [{ message := "n" }] })
      (by decide +kernel) (by decide +kernel) _ (List.mem_singleton_self _)

/-- What was found under the name that the container has for the file is lost, whichever
way the report is applied. -/
theorem finding_lost :
    Report.parse twiceText = .ok twiceReport ∧
    (∃ file ∈ twiceReport.files, file.1 = "/app/a.php" ∧ ∃ v ∈ file.2.violations, ∀ mode,
      ¬ mountedMapping.HasRecord (mountedMapping.apply twiceReport mode .empty).store file.1 v) ∧
    (mountedMapping.apply twiceReport .replace .empty).store.total ≠ twiceReport.total := by
  refine ⟨eq_ok_of_toOption_eq_some (by decide +kernel), ?_, by decide +kernel⟩
  refine ⟨_, List.mem_cons_self, rfl, _, List.mem_singleton_self _, ?_⟩
  rintro mode ⟨ds, hds, hmem⟩
  have hentry : (mountedMapping.apply twiceReport mode .empty).store.get?
      (mountedMapping.localPath "/app/a.php") = some [.ofViolation { message := "n" }] := by
    cases mode <;> decide +kernel
  obtain rfl := Option.some.inj (hentry.symm.trans hds)
  revert hmem
  decide +kernel

end Twice

end Mapping

end DiagnosticRelay
