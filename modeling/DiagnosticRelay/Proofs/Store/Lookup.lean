import DiagnosticRelay.Proofs.Path.NormalForm
import DiagnosticRelay.Proofs.Path.Order
import DiagnosticRelay.Store.Basic

/-!
# Looking up what the store holds

What an operation of the store does is said by the entry that each path has
afterwards. The laws hold of every list of entries, in order or not: insertion
meets an entry of the same path before it could pass it by.

## Main results

* `get?_congr`: the same path has the same entry.
* `get?_set`, `get?_erase`: entries after an operation.
* `contains_eq_isSome_get?`, `exists_mem_paths_iff`: who has an entry.
-/

namespace DiagnosticRelay.Store

variable (s : Store) (p q : Path) (ds : List Diagnostic)

@[simp] theorem get?_empty : empty.get? p = none := rfl

@[simp] theorem contains_empty : empty.contains p = false := rfl

@[simp] theorem fst_remove : (s.remove p).1 = s.erase p := rfl

@[simp] theorem snd_remove : (s.remove p).2 = s.contains p := rfl

@[simp] theorem fst_clear : s.clear.1 = empty := rfl

@[simp] theorem snd_clear : s.clear.2 = s.paths := rfl

/-- The same path has the same entry. -/
theorem get?_congr {p q : Path} (h : Path.Same p q) : s.get? p = s.get? q := by
  have hsame : (fun entry : Path × List Diagnostic => decide (Path.Same entry.1 p)) =
      fun entry => decide (Path.Same entry.1 q) :=
    funext fun entry => by simp only [h.congr_right]
  rw [get?, get?, hsame]

/-- A path has diagnostics exactly when there are some to get. -/
theorem contains_eq_isSome_get? : s.contains p = (s.get? p).isSome := by
  rw [contains, get?, Option.isSome_map, Bool.eq_iff_iff, List.any_eq_true, List.find?_isSome]

theorem contains_congr {p q : Path} (h : Path.Same p q) : s.contains p = s.contains q := by
  rw [contains_eq_isSome_get?, contains_eq_isSome_get?, s.get?_congr h]

theorem contains_eq_false_iff : s.contains p = false ↔ s.get? p = none := by
  rw [contains_eq_isSome_get?, Option.isSome_eq_false_iff, Option.isNone_iff_eq_none]

/-- The paths of the store are those that have an entry, each in some spelling. -/
theorem exists_mem_paths_iff : (∃ q ∈ s.paths, Path.Same q p) ↔ s.contains p = true := by
  simp [paths, contains]

theorem find?_insertEntry (entries : List (Path × List Diagnostic)) :
    ((insertEntry p ds entries).find? fun entry => Path.Same entry.1 q).map (·.2) =
      if Path.Same p q then some ds
      else (entries.find? fun entry => Path.Same entry.1 q).map (·.2) := by
  induction entries with
  | nil => by_cases h : Path.Same p q <;> simp [insertEntry, h]
  | cons entry rest ih =>
    rw [insertEntry]
    split
    · by_cases h : Path.Same p q <;> simp [h]
    next heq =>
      have hsame := Path.compare_eq_eq_iff.mp heq
      by_cases hentry : Path.Same entry.1 q
      · simp [hentry, hsame.trans hentry]
      · have h : ¬ Path.Same p q := fun h => hentry (hsame.symm.trans h)
        simp [hentry, h]
    next hgt =>
      -- An entry that is passed by belongs to another path.
      have hne : ¬ Path.Same p entry.1 := fun h => by
        rw [Path.compare_eq_eq_iff.mpr h] at hgt
        cases hgt
      by_cases hentry : Path.Same entry.1 q
      · have h : ¬ Path.Same p q := fun h => hne (h.trans hentry.symm)
        simp [hentry, h]
      · simpa [hentry] using ih

/-- Without an entry there is none to remove. -/
theorem erase_of_not_contains {p : Path} (h : s.contains p = false) : s.erase p = s := by
  have hkept : s.entries.filter (fun entry => ¬ Path.Same entry.1 p) = s.entries := by
    rw [List.filter_eq_self]
    simpa [contains] using h
  rw [erase, hkept]

@[simp] theorem get?_erase :
    (s.erase p).get? q = if Path.Same p q then none else s.get? q := by
  obtain ⟨entries⟩ := s
  rw [get?, erase, get?]
  induction entries with
  | nil => simp
  | cons entry rest ih =>
    by_cases hp : Path.Same entry.1 p <;> by_cases hq : Path.Same entry.1 q
    · have h : Path.Same p q := hp.symm.trans hq
      simpa [hp, hq, h] using ih
    · simpa [hp, hq] using ih
    · have h : ¬ Path.Same p q := fun h => hp (hq.trans h.symm)
      simp [hp, hq, h]
    · simpa [hp, hq] using ih

theorem get?_set : (s.set p ds).get? q =
    if Path.Same p q then (if ds = [] then none else some ds) else s.get? q := by
  rw [set]
  by_cases hds : ds = []
  · simp [hds]
  · simp only [List.isEmpty_iff, hds, if_false]
    exact find?_insertEntry p q ds s.entries

end DiagnosticRelay.Store
