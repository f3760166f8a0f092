import Mathlib.Data.List.Induction

/-!
# The last of a list

What a sequence of events leaves is often decided by the last event of a kind.

## Main definitions

* `IsLast`: the last of a list that has a property.

## Main results

* `IsLast.concat`, `isLast_concat`: lists that get longer.
* `exists_isLast_or_forall_not`: there is a last one, or none.
-/

namespace DiagnosticRelay

variable {α : Type} {P : α → Prop} {xs : List α} {a b : α}

/-- The last of a list that has a property. -/
def IsLast (P : α → Prop) (xs : List α) (a : α) : Prop :=
  ∃ earlier later, xs = earlier ++ a :: later ∧ P a ∧ ∀ other ∈ later, ¬ P other

theorem IsLast.holds (h : IsLast P xs a) : P a := by
  obtain ⟨_, _, -, ha, -⟩ := h
  exact ha

theorem IsLast.mem (h : IsLast P xs a) : a ∈ xs := by
  obtain ⟨earlier, later, rfl, -, -⟩ := h
  simp

theorem isLast_concat (h : P a) : IsLast P (xs ++ [a]) a :=
  ⟨xs, [], rfl, h, by simp⟩

theorem forall_not_concat (h : ∀ other ∈ xs, ¬ P other) (hb : ¬ P b) :
    ∀ other ∈ xs ++ [b], ¬ P other := by
  intro other hother
  rcases List.mem_append.mp hother with hother | hother
  · exact h other hother
  · exact List.mem_singleton.mp hother ▸ hb

/-- What lacks the property may be appended. -/
theorem IsLast.concat (h : IsLast P xs a) (hb : ¬ P b) : IsLast P (xs ++ [b]) a := by
  obtain ⟨earlier, later, rfl, ha, hlater⟩ := h
  exact ⟨earlier, later ++ [b], by simp, ha, forall_not_concat hlater hb⟩

/-- There is only one last element with the property. -/
theorem IsLast.unique (h : IsLast P xs a) (h' : IsLast P xs b) : a = b := by
  classical
  -- The last element with the property is the last one that a filter leaves.
  have getLast?_filter {c : α} (hc : IsLast P xs c) : (xs.filter P).getLast? = some c := by
    obtain ⟨earlier, later, rfl, hc, hlater⟩ := hc
    have hnone : later.filter P = [] := List.filter_eq_nil_iff.mpr (by simpa using hlater)
    simp [hc, hnone]
  exact Option.some.inj ((getLast?_filter h).symm.trans (getLast?_filter h'))

/-- A list has a last element with the property, or none with it. -/
theorem exists_isLast_or_forall_not (P : α → Prop) (xs : List α) :
    (∃ a, IsLast P xs a) ∨ ∀ a ∈ xs, ¬ P a := by
  induction xs using List.reverseRecOn with
  | nil => exact .inr (by simp)
  | append_singleton xs b ih =>
    by_cases hb : P b
    · exact .inl ⟨b, isLast_concat hb⟩
    · exact ih.imp (fun ⟨a, ha⟩ => ⟨a, ha.concat hb⟩) fun hnone => forall_not_concat hnone hb

theorem IsLast.congr {Q : α → Prop} (h : IsLast P xs a) (hiff : ∀ b ∈ xs, P b ↔ Q b) :
    IsLast Q xs a := by
  obtain ⟨earlier, later, rfl, ha, hlater⟩ := h
  refine ⟨earlier, later, rfl, (hiff a (by simp)).mp ha, fun b hb hq => hlater b hb ?_⟩
  exact (hiff b (by simp [hb])).mpr hq

end DiagnosticRelay
