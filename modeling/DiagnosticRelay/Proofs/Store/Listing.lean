import DiagnosticRelay.Proofs.Run.Independence
import DiagnosticRelay.Proofs.Store.LocalPath
import Mathlib.Data.List.Sort

/-!
# Violations by local path

What a report leaves in a store that held nothing is the violations of its files by local
path, in the order of the paths. Of several reported files that stand for one path only
the last counts.

## Main definitions

* `Mapping.IsListing`: the violations of a report by local path.
* `Mapping.storeOf`, `Mapping.listing`: the store after a report, and its violations.

## Main results

* `Mapping.entries_storeOf`: the entries of the store.
* `Mapping.isListing_listing`: they are a listing of the report.
* `Mapping.IsListing.unique`: a report has only one listing.
-/

namespace DiagnosticRelay

/-- Every entry is of a path that was set. -/
theorem Store.forall_mem_setAll {s : Store} {ws : List (Path × List Diagnostic)}
    {P : Path → Prop} (hs : ∀ e ∈ s.entries, P e.1) (hws : ∀ w ∈ ws, P w.1) :
    ∀ e ∈ (s.setAll ws).entries, P e.1 := by
  refine List.foldlRecOn ws (motive := fun t : Store => ∀ e ∈ t.entries, P e.1) _ hs ?_
  intro t ht w hw
  rw [Store.set]
  split_ifs
  · exact fun e he => ht e (List.mem_of_mem_filter he)
  · exact Store.forall_mem_insertEntry (hws w hw) ht

namespace Mapping

variable {m : Mapping} {report : Report} {p : Path} {listed others : List (Path × List Violation)}

/-- The violations of a report by local path, in increasing order of the paths. Of the
reported files that stand for a path, the one with the greatest octets counts. -/
structure IsListing (m : Mapping) (report : Report) (listed : List (Path × List Violation)) :
    Prop where
  increasing : listed.Pairwise fun a b => Path.compare a.1 b.1 = .lt
  winning : ∀ e ∈ listed, ∃ name, report.Lists name e.2 ∧ e.1 = m.localPath name ∧
    ∀ other others, report.Lists other others → m.localPath other = e.1 →
      (other, others) = (name, e.2) ∨ Octets.ofString other < Octets.ofString name
  complete : ∀ name violations, report.Lists name violations → ∃ e ∈ listed, e.1 = m.localPath name

/-- The store after a report when nothing was there before. -/
def storeOf (m : Mapping) (report : Report) : Store := Store.empty.setAll (m.writes report)

/-- The violations that are in the store after a report, by local path. -/
def listing (m : Mapping) (report : Report) : List (Path × List Violation) :=
  (m.storeOf report).entries.map fun e =>
    (e.1, ((m.lastOn? e.1 report.findings).map (·.2)).getD [])

theorem exists_localPath_of_mem_storeOf {e : Path × List Diagnostic}
    (h : e ∈ (m.storeOf report).entries) : ∃ file ∈ report.findings, e.1 = m.localPath file.1 := by
  refine Store.forall_mem_setAll
    (P := fun p => ∃ file ∈ report.findings, p = m.localPath file.1) (by simp [Store.empty]) ?_ e h
  intro w hw
  obtain ⟨file, hfile, rfl⟩ := List.mem_map.mp hw
  exact ⟨file, hfile, rfl⟩

theorem isSorted_storeOf : (m.storeOf report).IsSorted := Store.isSorted_empty.setAll _

theorem get?_storeOf : (m.storeOf report).get? p = m.entryOf report p := by
  rw [← get?_apply_replace m report Store.empty p, store_apply]
  rfl

/-- Every entry has the violations of the last file for its path. -/
theorem exists_lastOn?_of_mem_storeOf {e : Path × List Diagnostic}
    (h : e ∈ (m.storeOf report).entries) :
    ∃ file, m.lastOn? e.1 report.findings = some file ∧
      e.2 = file.2.map Diagnostic.ofViolation := by
  have hentry : (m.storeOf report).get? e.1 = some e.2 :=
    isSorted_storeOf.get?_eq_some_iff.mpr ⟨e.1, h, Path.Same.refl _⟩
  rw [get?_storeOf, entryOf, Option.map_eq_some_iff] at hentry
  obtain ⟨file, hlast, hds⟩ := hentry
  exact ⟨file, hlast, hds.symm⟩

theorem entries_storeOf : (m.storeOf report).entries =
    (m.listing report).map fun e => (e.1, e.2.map Diagnostic.ofViolation) := by
  rw [listing, List.map_map]
  conv_lhs => rw [← List.map_id (m.storeOf report).entries]
  refine List.map_congr_left fun e he => ?_
  obtain ⟨file, hlast, hds⟩ := exists_lastOn?_of_mem_storeOf he
  simp [hlast, ← hds]

theorem isListing_listing (hordered : report.IsOrdered) :
    m.IsListing report (m.listing report) where
  increasing := List.pairwise_map.mpr isSorted_storeOf
  winning e he := by
    obtain ⟨entry, hentry, rfl⟩ := List.mem_map.mp he
    obtain ⟨file, hlast, -⟩ := exists_lastOn?_of_mem_storeOf hentry
    obtain ⟨hfile, hsame, hothers⟩ := lastOn?_eq_some hordered hlast
    obtain ⟨spelled, -, hspelled⟩ := exists_localPath_of_mem_storeOf hentry
    rw [hspelled] at hsame
    have hpath : entry.1 = m.localPath file.1 := hspelled.trans (localPath_eq_of_same hsame).symm
    rw [hlast, hpath]
    refine ⟨file.1, Report.mem_findings_iff.mp hfile, rfl, fun other others hother hsame => ?_⟩
    exact hothers (other, others) (Report.mem_findings_iff.mpr hother)
      (hsame.trans hpath.symm ▸ .refl _)
  complete name violations hlists := by
    have hreports : m.Reports report (m.localPath name) := ⟨name, violations, hlists, .refl _⟩
    obtain ⟨ds, hds⟩ := Option.isSome_iff_exists.mp (entryOf_isSome_iff.mpr hreports)
    rw [← get?_storeOf, isSorted_storeOf.get?_eq_some_iff] at hds
    obtain ⟨q, hq, hsame⟩ := hds
    obtain ⟨other, -, hother⟩ := exists_localPath_of_mem_storeOf hq
    refine ⟨_, List.mem_map_of_mem hq, ?_⟩
    change q = _
    obtain rfl : q = m.localPath other.1 := hother
    exact localPath_eq_of_same hsame

/-- What one listing has for a path, every other has. -/
theorem IsListing.mem (h : m.IsListing report listed) (hothers : m.IsListing report others)
    {e : Path × List Violation} (he : e ∈ listed) : e ∈ others := by
  obtain ⟨name, hlists, hname, hwins⟩ := h.winning e he
  obtain ⟨e', he', hpath'⟩ := hothers.complete name e.2 hlists
  obtain ⟨name', hlists', hname', hwins'⟩ := hothers.winning e' he'
  have hpath : e.1 = e'.1 := hname.trans hpath'.symm
  -- Both files count for the path, so neither has greater octets than the other.
  have hviolations : e.2 = e'.2 := by
    rcases hwins name' e'.2 hlists' (hname'.symm.trans hpath.symm) with heq | hlt
    · exact (Prod.mk.inj heq).2.symm
    rcases hwins' name e.2 hlists (hname.symm.trans hpath) with heq | hlt'
    · exact (Prod.mk.inj heq).2
    · exact absurd hlt' (List.lt_asymm hlt)
  exact (Prod.ext hpath hviolations : e = e') ▸ he'

/-- A report has only one listing. -/
theorem IsListing.unique (h : m.IsListing report listed) (hothers : m.IsListing report others) :
    listed = others := by
  let before (a b : Path × List Violation) : Prop := Path.compare a.1 b.1 = .lt
  have hirrefl : Std.Irrefl before := ⟨fun a hlt => by
    have hself := Path.compare_eq_eq_iff.mpr (.refl a.1)
    cases hlt.symm.trans hself⟩
  have hantisymm : Std.Antisymm before := ⟨fun a b hlt hgt =>
    absurd (Std.TransCmp.lt_trans hlt hgt) (hirrefl.irrefl a)⟩
  exact h.increasing.eq_of_mem_iff hothers.increasing fun e => ⟨h.mem hothers, hothers.mem h⟩

end Mapping

end DiagnosticRelay
