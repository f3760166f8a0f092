import DiagnosticRelay.Path.Basic
import Mathlib.Data.List.Basic

/-!
# The order of paths

Paths are ordered by their components, so two paths compare as equal exactly when
they mean the same, and the order is transitive.

## Main results

* `compare_eq_eq_iff`: equal in the order is the same path.
* `Component.compare_eq_compareLex`: components in terms of their kinds and octets.
-/

namespace DiagnosticRelay.Path

theorem Component.compare_name_eq_eq_iff {a b : Octets} :
    Component.compare (.name a) (.name b) = .eq ↔ a = b := by
  change List.compareLex Ord.compare a b = .eq ↔ a = b
  exact Std.LawfulEqCmp.compare_eq_iff_eq

/-- Components compare as equal only when they are the same component. -/
instance : Std.LawfulEqCmp Component.compare where
  compare_self {c} := by
    cases c with
    | name octets => exact Component.compare_name_eq_eq_iff.mpr rfl
    | _ => rfl
  eq_of_compare {a b} h := by
    cases a with
    | name octets =>
      cases b with
      | name octets' => rw [Component.compare_name_eq_eq_iff.mp h]
      | _ => cases h
    | _ => cases b <;> first | rfl | cases h

/-- Equal in the order is the same path. -/
theorem compare_eq_eq_iff {p q : Path} : compare p q = .eq ↔ Same p q := by
  change List.compareLex Component.compare p.components q.components = .eq ↔ _
  exact Std.LawfulEqCmp.compare_eq_iff_eq

/-! ## Transitivity -/

/-- The octets of a name; the other components have none. -/
def Component.nameOctets : Component → Octets
  | .name octets => octets
  | _ => []

/-- Components are ordered by their kinds first and then by their octets. -/
theorem Component.compare_eq_compareLex :
    Component.compare = compareLex (compareOn Component.rank)
      (fun a b => List.compareLex Ord.compare a.nameOctets b.nameOctets) := by
  funext a b
  cases a <;> cases b <;> rfl

/-- What is ordered by a value is ordered as the values are. -/
theorem transCmp_comap {α β : Type} (f : α → β) (cmp : β → β → Ordering) [Std.TransCmp cmp] :
    Std.TransCmp fun a b => cmp (f a) (f b) where
  eq_swap {a b} := @Std.OrientedCmp.eq_swap β cmp _ (f a) (f b)
  isLE_trans {a b c} := @Std.TransCmp.isLE_trans β cmp _ (f a) (f b) (f c)

instance : Std.TransCmp Component.compare := by
  have := transCmp_comap Component.nameOctets (List.compareLex Ord.compare)
  rw [Component.compare_eq_compareLex]
  infer_instance

instance : Std.TransCmp compare := transCmp_comap components (List.compareLex Component.compare)

end DiagnosticRelay.Path
