import DiagnosticRelay.Proofs.Except.Ok
import DiagnosticRelay.Proofs.Text.Utf8Order
import DiagnosticRelay.Run.Outcome
import Mathlib.Data.List.Basic
import Mathlib.Data.String.Basic

/-!
# The order of a report

The files of a report stand in increasing order of the octets of their reported
paths, whatever the text of the report was: entering a file keeps the order, and
nothing but entering files makes a report.

## Main definitions

* `Report.IsOrdered`: the files are in order.
* `Report.Lists`, `Report.IsClean`: the violations that a report lists, by file.

## Main results

* `enterRecord_invariant`: what every field of a record keeps, the record keeps.
* `isOrdered_of_parse`: reports that are read are in order.
* `IsOrdered.pairwise_findings`: so are their findings.
* `mem_findings_iff`: the findings are the violations that are listed.
-/

namespace DiagnosticRelay

/-! ## Entering files -/

theorem forall_mem_insertFile {P : String × FileResult → Prop} {path : String}
    {result : FileResult} {files : List (String × FileResult)} (hnew : P (path, result))
    (h : ∀ file ∈ files, P file) : ∀ file ∈ insertFile path result files, P file := by
  induction files with
  | nil => simpa [insertFile] using hnew
  | cons first rest ih =>
    obtain ⟨hfirst, hrest⟩ := List.forall_mem_cons.mp h
    rw [insertFile]
    split_ifs
    · exact List.forall_mem_cons.mpr ⟨hnew, hrest⟩
    · exact List.forall_mem_cons.mpr ⟨hnew, h⟩
    · exact List.forall_mem_cons.mpr ⟨hfirst, ih hrest⟩

/-- Entering a file keeps the order. -/
theorem pairwise_insertFile (path : String) (result : FileResult)
    {files : List (String × FileResult)} (h : files.Pairwise fun a b => a.1 < b.1) :
    (insertFile path result files).Pairwise fun a b => a.1 < b.1 := by
  induction files with
  | nil => simp [insertFile]
  | cons first rest ih =>
    obtain ⟨hfirst, hrest⟩ := List.pairwise_cons.mp h
    rw [insertFile]
    split_ifs with heq hlt
    · subst heq
      exact List.pairwise_cons.mpr ⟨hfirst, hrest⟩
    · refine List.pairwise_cons.mpr ⟨fun file hfile => ?_, h⟩
      rcases List.mem_cons.mp hfile with rfl | hfile
      · exact hlt
      · exact lt_trans hlt (hfirst file hfile)
    · -- The file goes behind the first one, and the rest is entered into in turn.
      have hgt : first.1 < path := lt_of_le_of_ne (not_lt.mp hlt) (Ne.symm heq)
      exact List.pairwise_cons.mpr ⟨forall_mem_insertFile hgt hfirst, ih hrest⟩

namespace Report

/-- The files stand in increasing order of their reported paths. -/
def IsOrdered (report : Report) : Prop := report.files.Pairwise fun a b => a.1 < b.1

/-- Files that are entered one after another are in order. -/
theorem pairwise_foldl_insertFile (results : List (String × FileResult)) :
    (results.foldl (fun files r => insertFile r.1 r.2 files) []).Pairwise fun a b => a.1 < b.1 :=
  List.foldlRecOn results _ List.Pairwise.nil fun _ hfiles r _ =>
    pairwise_insertFile r.1 r.2 hfiles

theorem pairwise_of_filesOfMembers? {members : List (String × Json.Value)}
    {files : List (String × FileResult)} (h : filesOfMembers? members = some files) :
    files.Pairwise fun a b => a.1 < b.1 := by
  obtain ⟨results, -, hfold⟩ := Option.bind_eq_some_iff.mp h
  obtain rfl := Option.some.inj hfold
  exact pairwise_foldl_insertFile results

theorem pairwise_of_filesOfValue? {v : Json.Value} {files : List (String × FileResult)}
    (h : filesOfValue? v = .ok files) : files.Pairwise fun a b => a.1 < b.1 := by
  unfold filesOfValue? at h
  split at h
  · split at h
    next hmembers =>
      obtain rfl := Except.ok.inj h
      exact pairwise_of_filesOfMembers? hmembers
    · cases h
  · obtain rfl := Except.ok.inj h
    exact List.Pairwise.nil
  · cases h
  · cases h

theorem pairwise_of_filesOf {depth : Nat} {node : Json.Node} {files : List (String × FileResult)}
    (h : filesOf depth node = .ok files) : files.Pairwise fun a b => a.1 < b.1 := by
  rw [filesOf] at h
  split at h
  · cases h
  · exact pairwise_of_filesOfValue? (eq_ok_of_mapError_eq_ok h)

/-! ## Entering fields -/

section Invariant

variable {σ : Type} {P : σ → Prop} {fields : List (Field σ)}

/-- Entering a field keeps a property of records. -/
def Field.Keeps (P : σ → Prop) (field : Field σ) : Prop :=
  ∀ depth node record entered, P record → field.enter depth node record = .ok entered → P entered

theorem enterItems_invariant {depth : Nat} {items : Json.Items} {record entered : σ}
    (keeps : ∀ field ∈ fields, field.Keeps P) (hrecord : P record)
    (h : enterItems depth fields items record = .ok entered) : P entered := by
  induction fields generalizing items record with
  | nil =>
    rw [enterItems] at h
    cases items <;> simp only [itemsEnd, Except.ok.injEq, reduceCtorEq] at h
    exact h ▸ hrecord
  | cons field fields ih =>
    cases items with
    | close stop =>
      rw [enterItems] at h
      exact Except.ok.inj h ▸ hrecord
    | broken => simp [enterItems] at h
    | item start value next =>
      rw [enterItems] at h
      split at h
      · cases h
      next hfield =>
        exact ih (fun f hf => keeps f (List.mem_cons_of_mem _ hf))
          (keeps field List.mem_cons_self _ _ _ _ hrecord hfield) h

theorem enterMembers_invariant {depth : Nat} {members : Json.Members} {seen : List String}
    {record entered : σ} (keeps : ∀ field ∈ fields, field.Keeps P) (hrecord : P record)
    (h : enterMembers depth fields members seen record = .ok entered) : P entered := by
  fun_induction enterMembers depth fields members seen record with
  | case1 => exact Except.ok.inj h ▸ hrecord
  | case8 _ _ _ _ _ _ _ _ _ ih => exact ih hrecord h
  | case11 _ _ _ _ _ _ _ field hfind _ record hfield ih =>
    have hmem := List.mem_of_find?_eq_some hfind
    exact ih (keeps field hmem _ _ _ _ hrecord hfield) h
  | _ => cases h

/-- What every field keeps, the record keeps. -/
theorem enterRecord_invariant {wanted : String} {depth : Nat} {node : Json.Node}
    {record entered : σ} (keeps : ∀ field ∈ fields, field.Keeps P) (hrecord : P record)
    (h : enterRecord wanted fields depth node record = .ok entered) : P entered := by
  unfold enterRecord at h
  split at h
  · cases h
  · exact enterItems_invariant keeps hrecord h
  · cases h
  · exact enterMembers_invariant keeps hrecord h
  · cases h

end Invariant

/-! ## Reading -/

/-- A report that is read has its files in order. -/
theorem isOrdered_of_parse {text : String} {report : Report} (h : parse text = .ok report) :
    report.IsOrdered := by
  have keeps : ∀ field ∈ fields, field.Keeps IsOrdered := by
    intro field hfield depth node report entered hreport henter
    simp only [fields, List.mem_cons, List.not_mem_nil, or_false] at hfield
    -- Only the first field touches the files.
    rcases hfield with rfl | rfl | rfl <;>
      obtain ⟨value, hvalue, hentered⟩ := exists_of_bind_eq_ok henter <;>
      obtain rfl := Except.ok.inj hentered
    · exact pairwise_of_filesOf hvalue
    · exact hreport
    · exact hreport
  obtain ⟨read, hread, hreport⟩ := exists_of_bind_eq_ok (eq_ok_of_mapError_eq_ok h)
  have hempty : IsOrdered {} := List.Pairwise.nil
  have hordered : read.IsOrdered := enterRecord_invariant keeps hempty hread
  split at hreport
  · exact Except.ok.inj hreport ▸ hordered
  · cases hreport

/-- The findings of a report in order stand in increasing order of the octets of
their reported paths. -/
theorem IsOrdered.pairwise_findings {report : Report} (h : report.IsOrdered) :
    report.findings.Pairwise fun a b => Octets.ofString a.1 < Octets.ofString b.1 := by
  rw [findings]
  refine List.Pairwise.filter _ (List.pairwise_map.mpr ?_)
  exact List.Pairwise.imp (fun {a b} hab => Octets.ofString_lt_ofString hab) h

/-! ## Files with messages -/

/-- A report lists the violations of a file: the messages that stand at its name, if there
are any. -/
def Lists (report : Report) (name : String) (violations : List Violation) : Prop :=
  (name, { messages := some violations }) ∈ report.files ∧ violations ≠ []

instance (report : Report) (name : String) (violations : List Violation) :
    Decidable (report.Lists name violations) := inferInstanceAs (Decidable (_ ∧ _))

/-- A report lists no violations. -/
def IsClean (report : Report) : Prop := ∀ name violations, ¬ report.Lists name violations

/-- The files with findings are those whose violations are listed. -/
theorem mem_findings_iff {report : Report} {file : String × List Violation} :
    file ∈ report.findings ↔ report.Lists file.1 file.2 := by
  simp only [findings, List.mem_filter, List.mem_map, Bool.not_eq_true', List.isEmpty_eq_false_iff]
  constructor
  · rintro ⟨⟨⟨name, ⟨messages⟩⟩, hfile, rfl⟩, hne⟩
    cases messages with
    | none => exact absurd rfl hne
    | some violations => exact ⟨hfile, hne⟩
  · rintro ⟨hfile, hne⟩
    exact ⟨⟨_, hfile, rfl⟩, hne⟩

/-- The files with findings have violations. -/
theorem ne_nil_of_mem_findings {report : Report} {file : String × List Violation}
    (h : file ∈ report.findings) : file.2 ≠ [] :=
  (mem_findings_iff.mp h).2

theorem hasFindings_eq_false_iff {report : Report} :
    report.hasFindings = false ↔ report.findings = [] := by
  simp [hasFindings]

theorem isClean_iff {report : Report} : report.IsClean ↔ report.hasFindings = false := by
  rw [hasFindings_eq_false_iff, List.eq_nil_iff_forall_not_mem, IsClean, Prod.forall]
  simp only [mem_findings_iff]

end Report

theorem Execution.report_eq_ok_of_toOption {execution : Execution} {report : Report}
    (h : execution.report.toOption = some report) : execution.report = .ok report :=
  eq_ok_of_toOption_eq_some h

/-- A report that comes of an execution has its files in order. -/
theorem Execution.isOrdered_of_report {execution : Execution} {report : Report}
    (h : execution.report = .ok report) : report.IsOrdered := by
  cases execution with
  | error reason => cases h
  | ok output =>
    change output.report = .ok report at h
    rw [ProcessOutput.report] at h
    split_ifs at h
    exact Report.isOrdered_of_parse (eq_ok_of_mapError_eq_ok h)

end DiagnosticRelay
