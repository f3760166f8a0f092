import DiagnosticRelay.Text.Blank
import Mathlib.Data.List.DropRight

/-!
# What trimming leaves

Trimming takes away the blanks at the two ends of a text. What is left is the only part
of it that neither begins nor ends with a blank and has nothing but blanks around it.

## Main definitions

* `Text.IsBlank`: nothing but blanks.
* `Text.IsTrimOf`: what is left of a text, said without an algorithm.

## Main results

* `isTrimOf_iff`: trimming leaves just that.
* `isEmpty_trim_iff`: nothing is left of a text of blanks, and of no other.
-/

namespace DiagnosticRelay.Text

/-- A text with nothing but blanks. -/
def IsBlank (s : String) : Prop := ∀ c ∈ s.toList, isBlank c = true

/-- A text neither begins nor ends with a blank, and is another one but for the blanks
around it. -/
structure IsTrimOf (t s : String) : Prop where
  head : ∀ c ∈ t.toList.head?, isBlank c = false
  last : ∀ c ∈ t.toList.getLast?, isBlank c = false
  around : ∃ before after, s.toList = before ++ t.toList ++ after ∧
    (∀ c ∈ before, isBlank c = true) ∧ ∀ c ∈ after, isBlank c = true

theorem trimBlanks_eq_rdropWhile (cs : List Char) :
    trimBlanks cs = (cs.dropWhile isBlank).rdropWhile isBlank := rfl

/-- The blanks before a text that does not begin with one. -/
theorem dropWhile_isBlank_append {before rest : List Char}
    (hbefore : ∀ c ∈ before, isBlank c = true) (hrest : ∀ c ∈ rest.head?, isBlank c = false) :
    (before ++ rest).dropWhile isBlank = rest := by
  rw [List.dropWhile_append_of_pos hbefore]
  cases rest with
  | nil => rfl
  | cons c cs => exact List.dropWhile_cons_of_neg (by simp [hrest c rfl])

/-- The blanks after a text that does not end with one. -/
theorem rdropWhile_isBlank_append {core after : List Char}
    (hcore : ∀ c ∈ core.getLast?, isBlank c = false) (hafter : ∀ c ∈ after, isBlank c = true) :
    (core ++ after).rdropWhile isBlank = core := by
  rw [List.rdropWhile, List.reverse_append,
    dropWhile_isBlank_append (by simpa using hafter) (by rwa [List.head?_reverse]),
    List.reverse_reverse]

theorem trimBlanks_append {before core after : List Char}
    (hhead : ∀ c ∈ core.head?, isBlank c = false) (hlast : ∀ c ∈ core.getLast?, isBlank c = false)
    (hbefore : ∀ c ∈ before, isBlank c = true) (hafter : ∀ c ∈ after, isBlank c = true) :
    trimBlanks (before ++ core ++ after) = core := by
  rw [trimBlanks_eq_rdropWhile]
  cases core with
  | nil =>
    -- With nothing in between, the blanks before and after are one run of blanks.
    have hall : ∀ c ∈ before ++ after, isBlank c = true :=
      List.forall_mem_append.mpr ⟨hbefore, hafter⟩
    rw [List.append_nil, List.dropWhile_eq_nil_iff.mpr hall, List.rdropWhile_nil]
  | cons c cs =>
    have hrest : ∀ d ∈ (c :: cs ++ after).head?, isBlank d = false := hhead
    rw [List.append_assoc, dropWhile_isBlank_append hbefore hrest,
      rdropWhile_isBlank_append hlast hafter]

theorem isTrimOf_trim (s : String) : IsTrimOf (trim s) s where
  head c hc := by
    rw [trim, String.toList_ofList, trimBlanks_eq_rdropWhile] at hc
    -- What is left begins where the text without the blanks before it begins.
    obtain ⟨after, hafter⟩ := List.rdropWhile_prefix isBlank (s.toList.dropWhile isBlank)
    have hhead : (s.toList.dropWhile isBlank).head? = some c := by
      rw [← hafter, List.head?_append, hc, Option.some_or]
    have hnot := List.head?_dropWhile_not isBlank s.toList
    rwa [hhead] at hnot
  last c hc := by
    rw [trim, String.toList_ofList, trimBlanks_eq_rdropWhile] at hc
    obtain ⟨hne, rfl⟩ := List.mem_getLast?_eq_getLast hc
    simpa using List.rdropWhile_last_not isBlank _ hne
  around := by
    refine ⟨s.toList.takeWhile isBlank, (s.toList.dropWhile isBlank).rtakeWhile isBlank, ?_,
      fun c => List.mem_takeWhile_imp, fun c => List.mem_rtakeWhile_imp⟩
    rw [trim, String.toList_ofList, trimBlanks_eq_rdropWhile, List.append_assoc,
      List.rdropWhile_append_rtakeWhile, List.takeWhile_append_dropWhile]

/-- Trimming leaves what is there without the blanks at the two ends. -/
theorem isTrimOf_iff {t s : String} : IsTrimOf t s ↔ t = trim s := by
  refine ⟨fun h => ?_, fun h => h ▸ isTrimOf_trim s⟩
  obtain ⟨before, after, hs, hbefore, hafter⟩ := h.around
  rw [trim, hs, trimBlanks_append h.head h.last hbefore hafter, String.ofList_toList]

/-- Nothing is left of a text of blanks, and of no other. -/
theorem isEmpty_trim_iff {s : String} : (trim s).isEmpty = true ↔ IsBlank s := by
  rw [String.isEmpty_iff, trim, String.ofList_eq_empty_iff, trimBlanks_eq_rdropWhile,
    List.rdropWhile_eq_nil_iff]
  constructor
  · intro h c hc
    rw [← List.takeWhile_append_dropWhile (p := isBlank) (l := s.toList), List.mem_append] at hc
    rcases hc with hc | hc
    · exact List.mem_takeWhile_imp hc
    · exact h c hc
  · exact fun h c hc => h c ((List.dropWhile_suffix isBlank).subset hc)

end DiagnosticRelay.Text
