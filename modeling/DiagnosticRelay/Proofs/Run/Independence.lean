import DiagnosticRelay.Proofs.Run.History
import DiagnosticRelay.Proofs.Store.Sorted
import DiagnosticRelay.Run.Guard

/-!
# Runs that are nothing to each other

A run on a file does nothing but set entries, and which ones it sets does not depend on
the store. If its report has findings for its own file only, it is nothing to a run on
another file that keeps to its own file as well, and the two may change places in a
history. So all that counts of such a history is what it is on each file.

## Main definitions

* `Pass.writes`: the entries that a run on a file sets.
* `Pass.IsAtHome`: a run reports violations for its own file only.
* `Pass.AreApart`: two runs have the same key, or keep to different files.

## Main results

* `Pass.after_eq_setAll`: a run on a file sets its entries.
* `Pass.replay_move`: a run may change places with runs that have other keys.
* `Pass.replay_congr`: histories that are the same on each key leave the same store.
-/

namespace DiagnosticRelay

/-! ## Setting several entries -/

namespace Store

variable {s : Store} {vs ws : List (Path × List Diagnostic)}

/-- The store with several entries set one after another. -/
def setAll (s : Store) (ws : List (Path × List Diagnostic)) : Store :=
  ws.foldl (fun s w => s.set w.1 w.2) s

theorem IsSorted.setAll (h : s.IsSorted) (ws : List (Path × List Diagnostic)) :
    (s.setAll ws).IsSorted :=
  List.foldlRecOn ws _ h fun _ hs _ _ => hs.set

theorem IsSorted.setAll_set_comm (h : s.IsSorted) {w : Path × List Diagnostic}
    (hne : ∀ v ∈ vs, ¬ Path.Same v.1 w.1) :
    (s.setAll vs).set w.1 w.2 = (s.set w.1 w.2).setAll vs := by
  induction vs generalizing s with
  | nil => rfl
  | cons v vs ih =>
    obtain ⟨hv, hvs⟩ := List.forall_mem_cons.mp hne
    change ((s.set v.1 v.2).setAll vs).set w.1 w.2 = ((s.set w.1 w.2).set v.1 v.2).setAll vs
    rw [ih h.set hvs, h.set_comm hv]

/-- Entries of different paths are set in any order. -/
theorem IsSorted.setAll_comm (h : s.IsSorted)
    (hne : ∀ v ∈ vs, ∀ w ∈ ws, ¬ Path.Same v.1 w.1) :
    (s.setAll vs).setAll ws = (s.setAll ws).setAll vs := by
  induction ws generalizing s with
  | nil => rfl
  | cons w ws ih =>
    have hw : ∀ v ∈ vs, ¬ Path.Same v.1 w.1 := fun v hv => hne v hv w List.mem_cons_self
    have hws : ∀ v ∈ vs, ∀ u ∈ ws, ¬ Path.Same v.1 u.1 := fun v hv u hu =>
      hne v hv u (List.mem_cons_of_mem _ hu)
    change ((s.setAll vs).set w.1 w.2).setAll ws = ((s.set w.1 w.2).setAll ws).setAll vs
    rw [h.setAll_set_comm hw, ih h.set hws]

end Store

/-! ## What a report sets -/

namespace Mapping

variable {m : Mapping} {report : Report} {store : Store}

/-- The entries that the files of a report are entered with. -/
def writes (m : Mapping) (report : Report) : List (Path × List Diagnostic) :=
  report.findings.map fun file => (m.localPath file.1, file.2.map Diagnostic.ofViolation)

theorem store_foldl_enter (files : List (String × List Violation)) (applied : Applied) :
    (files.foldl m.enter applied).store = applied.store.setAll
      (files.map fun file => (m.localPath file.1, file.2.map Diagnostic.ofViolation)) := by
  induction files generalizing applied with
  | nil => rfl
  | cons file files ih =>
    rw [List.foldl_cons, ih]
    rfl

theorem store_apply (mode : ApplyMode) :
    (m.apply report mode store).store = (start mode store).store.setAll (m.writes report) :=
  store_foldl_enter report.findings (start mode store)

theorem reports_of_mem_writes {w : Path × List Diagnostic} (h : w ∈ m.writes report) :
    m.Reports report w.1 := by
  obtain ⟨file, hfile, rfl⟩ := List.mem_map.mp h
  exact reports_iff.mpr ⟨file, hfile, Path.Same.refl _⟩

end Mapping

theorem Launch.isSorted_conclude {l : Launch} {store : Store} (h : store.IsSorted)
    (execution : Execution) : (l.conclude execution store).1.IsSorted := by
  cases hreport : execution.report with
  | error failure => rwa [conclude_of_failure hreport]
  | ok report =>
    rw [conclude_of_report hreport]
    cases htarget : l.target with
    | none =>
      rw [(apply_of_project htarget).1, Mapping.store_apply]
      exact Store.isSorted_empty.setAll _
    | some target =>
      cases hclean : report.hasFindings with
      | true =>
        rw [(apply_of_findings htarget hclean).1, Mapping.store_apply]
        exact h.setAll _
      | false =>
        by_cases hentry : l.hadEntry = true ∧ store.contains target = true
        · rw [(apply_of_cleared htarget hclean hentry).1]
          exact h.erase
        · rwa [(apply_of_kept htarget hclean hentry).1]

namespace Pass

variable {root p t : Path} {store : Store} {pass a b : Pass} {passes xs ys : List Pass}

/-! ## What a run on a file sets -/

/-- What a run covers. -/
def key (pass : Pass) : RunKey := .ofTarget pass.target

/-- The entries that a run on a file sets, without findings an empty one for the file. -/
def writes (root t : Path) (pass : Pass) : List (Path × List Diagnostic) :=
  match pass.execution.report with
  | .error _ => []
  | .ok report =>
    if report.hasFindings then (pass.mapping root).writes report else [(t.normalize, [])]

theorem isSorted_after (h : store.IsSorted) : (after root store pass).IsSorted :=
  Launch.isSorted_conclude h pass.execution

/-- A run on a file sets its entries, whatever the store is. -/
theorem after_eq_setAll (h : pass.target = some t) :
    after root store pass = store.setAll (pass.writes root t) := by
  have htarget : (Launch.of root pass.settings store pass.target).target = some t.normalize := by
    simp [Launch.of, h]
  have hhad : (Launch.of root pass.settings store pass.target).hadEntry =
      store.contains t.normalize := by
    simp [Launch.of, h]
  cases hreport : pass.execution.report with
  | error failure =>
    rw [after, writes, hreport, Launch.conclude_of_failure hreport]
    rfl
  | ok report =>
    rw [after, writes, hreport, Launch.conclude_of_report hreport]
    simp only
    cases hclean : report.hasFindings with
    | true =>
      rw [(Launch.apply_of_findings htarget hclean).1, Mapping.store_apply]
      rfl
    | false =>
      -- The run knows whether there is an entry to clear, and without one nothing is to be done.
      change _ = store.erase t.normalize
      by_cases hentry : store.contains t.normalize = true
      · rw [(Launch.apply_of_cleared htarget hclean ⟨hhad.trans hentry, hentry⟩).1]
      · rw [(Launch.apply_of_kept htarget hclean fun h => hentry h.2).1,
          store.erase_of_not_contains (Bool.not_eq_true _ ▸ hentry)]

/-! ## Runs that keep to their own files -/

/-- A run is on a file, and if it reports violations then for this file. -/
def IsAtHome (root : Path) (pass : Pass) : Prop :=
  ∃ t, pass.target = some t ∧ ∀ report p, pass.execution.report = .ok report →
    (pass.mapping root).Reports report p → Path.Same t p

/-- A run succeeds on a path: on the project, or on the file of that path. -/
def SucceedsOn (p : Path) (pass : Pass) : Prop :=
  (∃ report, pass.execution.report = .ok report) ∧ ∀ t, pass.target = some t → Path.Same t p

/-- A run on the project decides what it succeeds on. -/
theorem decides_iff_of_project (h : pass.target = none) :
    pass.Decides root p ↔ pass.SucceedsOn p := by
  simp [Decides, SucceedsOn, Mapping.Covers, h]

/-- A run that keeps to its own file decides what it succeeds on. -/
theorem decides_iff_of_isAtHome (h : pass.IsAtHome root) :
    pass.Decides root p ↔ pass.SucceedsOn p := by
  obtain ⟨t, ht, hown⟩ := h
  -- A file with findings is the file itself, and there is one if there are findings.
  have covers_iff {report : Report} (hreport : pass.execution.report = .ok report) :
      (pass.mapping root).Covers (some t.normalize) report p ↔ Path.Same t p := by
    cases hclean : report.hasFindings with
    | true =>
      rw [Mapping.covers_iff_of_findings hclean]
      obtain ⟨file, hfile⟩ := List.exists_mem_of_ne_nil report.findings fun hnil => by
        simp [Report.hasFindings, hnil] at hclean
      have hreports (q : Path) (hq : Path.Same ((pass.mapping root).localPath file.1) q) :
          (pass.mapping root).Reports report q := Mapping.reports_iff.mpr ⟨file, hfile, hq⟩
      refine ⟨hown report p hreport, fun hsame => hreports p ?_⟩
      exact (hown report _ hreport (hreports _ (Path.Same.refl _))).symm.trans hsame
    | false =>
      rw [Mapping.covers_iff_of_clean hclean]
      exact ⟨t.normalize_same.symm.trans, t.normalize_same.trans⟩
  constructor
  · rintro ⟨report, hreport, hcovers⟩
    rw [ht] at hcovers
    refine ⟨⟨report, hreport⟩, fun u hu => ?_⟩
    obtain rfl := Option.some.inj (ht.symm.trans hu)
    exact (covers_iff hreport).mp hcovers
  · rintro ⟨⟨report, hreport⟩, hsame⟩
    refine ⟨report, hreport, ?_⟩
    rw [ht]
    exact (covers_iff hreport).mpr (hsame t ht)

/-- Two runs have the same key, or both keep to their own files. -/
def AreApart (root : Path) (a b : Pass) : Prop :=
  a.key = b.key ∨ a.IsAtHome root ∧ b.IsAtHome root

theorem same_of_mem_writes (htarget : pass.target = some t) (h : pass.IsAtHome root)
    {w : Path × List Diagnostic} (hw : w ∈ pass.writes root t) : Path.Same t w.1 := by
  obtain ⟨u, hu, hown⟩ := h
  obtain rfl := Option.some.inj (htarget.symm.trans hu)
  rw [writes] at hw
  cases hreport : pass.execution.report with
  | error failure => simp [hreport] at hw
  | ok report =>
    simp only [hreport] at hw
    split_ifs at hw
    · exact hown report w.1 hreport (Mapping.reports_of_mem_writes hw)
    · rw [List.mem_singleton.mp hw]
      exact t.normalize_same.symm

/-- Runs that keep to different files change places. -/
theorem after_comm (hsorted : store.IsSorted) (ha : a.IsAtHome root) (hb : b.IsAtHome root)
    (hne : a.key ≠ b.key) :
    after root (after root store a) b = after root (after root store b) a := by
  obtain ⟨t, ht, -⟩ := id ha
  obtain ⟨u, hu, -⟩ := id hb
  rw [after_eq_setAll ht, after_eq_setAll hu, after_eq_setAll ht, after_eq_setAll hu]
  refine hsorted.setAll_comm fun v hv w hw hsame => hne ?_
  have htu : Path.Same t u :=
    ((same_of_mem_writes ht ha hv).trans hsame).trans (same_of_mem_writes hu hb hw).symm
  rw [key, key, ht, hu]
  exact congrArg RunKey.file htu

/-- A run that keeps to its own file leaves the entries of other paths. -/
theorem get?_after_of_isAtHome (htarget : pass.target = some t) (h : pass.IsAtHome root)
    (hne : ¬ Path.Same t p) : (after root store pass).get? p = store.get? p :=
  get?_after_of_not_decides fun hdecides =>
    hne (((decides_iff_of_isAtHome h).mp hdecides).2 t htarget)

/-- A run that is apart from another one leaves the entry of the other one's file. -/
theorem AreApart.contains_after (h : a.AreApart root b) (hne : a.key ≠ b.key)
    (ht : b.target = some t) : (after root store a).contains t = store.contains t := by
  obtain ⟨ha, -⟩ := h.resolve_left hne
  obtain ⟨u, hu, -⟩ := id ha
  have hut : ¬ Path.Same u t := fun hsame => hne (by
    rw [key, key, hu, ht]
    exact congrArg RunKey.file hsame)
  rw [Store.contains_eq_isSome_get?, Store.contains_eq_isSome_get?,
    get?_after_of_isAtHome hu ha hut]

/-! ## Histories of such runs -/

/-- A run may come before runs that have other keys. -/
theorem replay_move (hsorted : store.IsSorted) (hapart : ∀ a ∈ xs, AreApart root a b)
    (hne : ∀ a ∈ xs, a.key ≠ b.key) (ys : List Pass) :
    replay root store (xs ++ b :: ys) = replay root (after root store b) (xs ++ ys) := by
  induction xs generalizing store with
  | nil => rfl
  | cons a xs ih =>
    obtain ⟨hab, hxs⟩ := List.forall_mem_cons.mp hapart
    obtain ⟨hkey, hkeys⟩ := List.forall_mem_cons.mp hne
    obtain ⟨ha, hb⟩ := hab.resolve_left hkey
    change replay root (after root store a) (xs ++ b :: ys) =
      replay root (after root (after root store b) a) (xs ++ ys)
    rw [ih (isSorted_after hsorted) hxs hkeys, after_comm hsorted ha hb hkey]

/-- Histories that are the same on each key leave the same store. -/
theorem replay_congr (hsorted : store.IsSorted)
    (hapart : ∀ a ∈ xs, ∀ b ∈ xs, AreApart root a b)
    (hsame : ∀ k, ys.filter (·.key = k) = xs.filter (·.key = k)) :
    replay root store ys = replay root store xs := by
  induction xs generalizing store ys with
  | nil =>
    have hys : ys = [] := List.eq_nil_iff_forall_not_mem.mpr fun b hb => by
      have hmem : b ∈ ys.filter (·.key = b.key) := by simpa using hb
      simp [hsame] at hmem
    rw [hys]
  | cons x xs ih =>
    -- The first run is the first of its key in the other history, so it may come first there.
    have hfirst : ys.filter (·.key = x.key) = x :: xs.filter (·.key = x.key) := by
      simpa using hsame x.key
    obtain ⟨before, later, rfl, hbefore, -, hlater⟩ := List.filter_eq_cons_iff.mp hfirst
    have hne : ∀ a ∈ before, a.key ≠ x.key := by simpa using hbefore
    have hmem : ∀ a ∈ before, a ∈ x :: xs := fun a ha => by
      have hkey : a ∈ (before ++ x :: later).filter (·.key = a.key) := by simp [ha]
      rw [hsame] at hkey
      exact List.mem_of_mem_filter hkey
    rw [replay_move hsorted (fun a ha => hapart a (hmem a ha) x List.mem_cons_self) hne]
    refine ih (isSorted_after hsorted)
      (fun a ha b hb => hapart a (List.mem_cons_of_mem _ ha) b (List.mem_cons_of_mem _ hb)) ?_
    intro k
    have hk := hsame k
    by_cases hxk : x.key = k
    · subst hxk
      rw [List.filter_append, List.filter_eq_nil_iff.mpr (by simpa using hne), List.nil_append]
      exact hlater
    · simpa [List.filter_append, List.filter_cons, hxk] using hk

end Pass

end DiagnosticRelay
