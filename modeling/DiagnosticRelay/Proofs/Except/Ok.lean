import Mathlib.Tactic.Common

/-!
# Results without a fault

What has a result is taken apart: if a composed computation has one, so have its parts.

## Main results

* `exists_of_bind_eq_ok`, `exists_of_map_eq_ok`: one computation after another.
* `mapError_eq_ok_iff`: a computation whose fault is put in other words.
* `eq_ok_of_toOption_eq_some`: a computation whose fault is forgotten.
-/

namespace DiagnosticRelay

variable {ε ε' α β : Type} {x : Except ε α}

theorem exists_of_bind_eq_ok {f : α → Except ε β} {b : β} (h : x >>= f = .ok b) :
    ∃ a, x = .ok a ∧ f a = .ok b := by
  cases x with
  | error e => cases h
  | ok a => exact ⟨a, rfl, h⟩

theorem exists_of_map_eq_ok {f : α → β} {b : β} (h : x.map f = .ok b) : ∃ a, b = f a := by
  cases x with
  | error e => cases h
  | ok a => exact ⟨a, (Except.ok.inj h).symm⟩

theorem eq_ok_of_mapError_eq_ok {f : ε → ε'} {a : α} (h : x.mapError f = .ok a) : x = .ok a := by
  cases x with
  | error e => cases h
  | ok b => exact congrArg _ (Except.ok.inj h)

theorem mapError_eq_ok_iff {f : ε → ε'} {a : α} : x.mapError f = .ok a ↔ x = .ok a :=
  ⟨eq_ok_of_mapError_eq_ok, fun h => h ▸ rfl⟩

theorem eq_ok_of_toOption_eq_some {a : α} (h : x.toOption = some a) : x = .ok a := by
  cases x with
  | error e => cases h
  | ok b => exact congrArg _ (Option.some.inj h)

end DiagnosticRelay
