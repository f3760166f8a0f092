import DiagnosticRelay.Diagnostic.Basic
import Mathlib.Tactic.Common

/-!
# Lines of diagnostics

A line passes through numbers of 64 bits with a sign and of 32 bits without one. What comes
out is what the integers give: one less, but not below zero, and not above the largest
number of 32 bits.

## Main results

* `Diagnostic.toInt_lineBefore`: counting down stays within 64 bits.
* `Diagnostic.toNat_lineOf`: the line of a diagnostic.
-/

namespace DiagnosticRelay.Diagnostic

theorem toNat_clamp (n : Nat) : (clamp n).toNat = min n largest := by
  rw [clamp, UInt32.toNat_ofNat']
  exact Nat.mod_eq_of_lt (by rw [largest, UInt32.size]; omega)

/-- Counting down stays within 64 bits. -/
theorem toInt_lineBefore (n : Int64) :
    (lineBefore n).toInt = max (n.toInt - 1) Int64.minValue.toInt := by
  have hlow := n.le_toInt
  have hhigh := n.toInt_lt
  have hleast : Int64.minValue.toInt = -9223372036854775808 := Int64.toInt_minValue
  rw [lineBefore]
  split_ifs with h
  · rw [h, hleast]
    rfl
  · have hne : n.toInt ≠ Int64.minValue.toInt := mt Int64.toInt_inj.mp h
    have hone : (1 : Int64).toInt = 1 := rfl
    rw [hleast] at hne ⊢
    rw [Int64.toInt_sub, hone, Int.bmod_eq_of_le (by omega) (by omega)]
    omega

theorem toInt_max (a b : Int64) : (max a b).toInt = max a.toInt b.toInt := by
  have hmax : max a b = if a ≤ b then b else a := rfl
  rw [hmax]
  split_ifs with h <;> rw [Int64.le_iff_toInt_le] at h <;> omega

/-- The line of a diagnostic, by the line of its violation. -/
theorem toNat_lineOf (line : Option Int64) :
    (lineOf line).toNat = min ((line.map Int64.toInt).getD 0 - 1).toNat largest := by
  have hline : (line.getD 0).toInt = (line.map Int64.toInt).getD 0 := by cases line <;> rfl
  have hzero : (0 : Int64).toInt = 0 := rfl
  rw [lineOf, toNat_clamp, ← Int64.toNat_toInt, toInt_max, toInt_lineBefore, hline, hzero,
    Int64.toInt_minValue]
  congr 1
  omega

end DiagnosticRelay.Diagnostic
