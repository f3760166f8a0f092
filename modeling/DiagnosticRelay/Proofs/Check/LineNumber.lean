import DiagnosticRelay.Check
import DiagnosticRelay.Proofs.Diagnostic.Line
import Mathlib.Algebra.Ring.Int.Defs
import Mathlib.Algebra.Ring.Nat

/-!
# Numbers of printed lines

A check counts lines and columns from one, so it adds one to numbers of 32 bits. For the
column nothing can go wrong. For the line the sum fits 32 bits exactly if the reported line
does. Then the entry has the reported line, or the first one if that is smaller or missing;
otherwise there is no entry, but a fault.

## Main definitions

* `Check.IsShort`: a line that fits 32 bits.
* `Check.lineNumber`, `Check.violationEntry`: the line of a violation, and its entry.

## Main results

* `Check.toNat_line_add_one_lt_iff`: when the sum fits 32 bits.
* `Check.entry_of_isShort`, `Check.entry_of_not_isShort`: what the entry of a violation is.
-/

namespace DiagnosticRelay.Check

variable {v w : Violation} {n : UInt32}

/-! ## Sums -/

/-- A number below the largest is counted from one. -/
theorem ordinal_of_lt (h : n.toNat + 1 < UInt32.size) :
    ordinal n = .ok (toString (n.toNat + 1)) := by
  have hsum : plus n 1 = .ok (n + 1) := if_pos h
  have hvalue : (n + 1).toNat = n.toNat + 1 := by
    rw [UInt32.toNat_add]
    exact Nat.mod_eq_of_lt h
  rw [ordinal, hsum, ← hvalue]
  rfl

theorem ordinal_of_not_lt (h : ¬n.toNat + 1 < UInt32.size) : ordinal n = .error .overflow := by
  have hsum : plus n 1 = .error .overflow := if_neg h
  rw [ordinal, hsum]
  rfl

/-! ## Lines of violations -/

/-- The line of a violation, if it has one, fits 32 bits. -/
def IsShort (v : Violation) : Prop := ∀ n, v.line = some n → n.toInt < 2 ^ 32

/-- The line of a violation; the first one if it has none or a smaller number. -/
def lineNumber (v : Violation) : Nat := (max 1 ((v.line.map Int64.toInt).getD 1)).toNat

theorem lineNumber_of_some {n : Int64} (h : v.line = some n) :
    lineNumber v = (max 1 n.toInt).toNat := by
  rw [lineNumber, h]
  rfl

theorem lineNumber_of_none (h : v.line = none) : lineNumber v = 1 := by
  rw [lineNumber, h]
  rfl

theorem one_le_lineNumber (v : Violation) : 1 ≤ lineNumber v := by
  rw [lineNumber]
  omega

/-- A later line has a larger number, or the same one. -/
theorem lineNumber_le_lineNumber {m n : Int64} (hv : v.line = some m) (hw : w.line = some n)
    (hle : m ≤ n) : lineNumber v ≤ lineNumber w := by
  rw [Int64.le_iff_toInt_le] at hle
  rw [lineNumber_of_some hv, lineNumber_of_some hw]
  omega

theorem lineNumber_lt_iff : lineNumber v < 2 ^ 32 ↔ IsShort v := by
  cases hline : v.line with
  | none =>
    refine iff_of_true (by rw [lineNumber_of_none hline]; decide) fun n hn => ?_
    exact absurd (hline.symm.trans hn) (by simp)
  | some n =>
    rw [lineNumber_of_some hline]
    constructor
    · intro hlt k hk
      obtain rfl := Option.some.inj (hline.symm.trans hk)
      omega
    · intro hshort
      have hn := hshort n hline
      omega

/-! ## Entries of violations -/

/-- The line that is stored is the number before the line, or the largest number. -/
theorem toNat_line_ofViolation (v : Violation) :
    (Diagnostic.ofViolation v).line.toNat = min (lineNumber v - 1) Diagnostic.largest := by
  have hline : ((v.line.map Int64.toInt).getD 0 - 1).toNat = lineNumber v - 1 := by
    cases h : v.line with
    | none => rw [lineNumber_of_none h]; rfl
    | some n =>
      rw [lineNumber_of_some h, Option.map_some, Option.getD_some]
      omega
  rw [Diagnostic.ofViolation, Diagnostic.toNat_lineOf, hline]

theorem toNat_line_add_one_lt_iff :
    (Diagnostic.ofViolation v).line.toNat + 1 < UInt32.size ↔ IsShort v := by
  have hpos := one_le_lineNumber v
  have hlargest : Diagnostic.largest + 1 = 2 ^ 32 := rfl
  have hsize : UInt32.size = 2 ^ 32 := rfl
  rw [toNat_line_ofViolation, ← lineNumber_lt_iff]
  omega

theorem toNat_line_add_one (h : IsShort v) :
    (Diagnostic.ofViolation v).line.toNat + 1 = lineNumber v := by
  have hpos := one_le_lineNumber v
  have hlt := lineNumber_lt_iff.mpr h
  have hlargest : Diagnostic.largest + 1 = 2 ^ 32 := rfl
  rw [toNat_line_ofViolation]
  omega

/-- The entry of a violation. -/
def violationEntry (p : Path) (v : Violation) : String :=
  line (p.display ++ ":" ++ toString (lineNumber v) ++ ":1: " ++ v.message ++
    bracketed v.identifier)

theorem entry_of_isShort (h : IsShort v) (p : Path) :
    entry p (.ofViolation v) = .ok (violationEntry p v) := by
  have hrow : ordinal (Diagnostic.ofViolation v).line = .ok (toString (lineNumber v)) := by
    rw [ordinal_of_lt (toNat_line_add_one_lt_iff.mpr h), toNat_line_add_one h]
  have hfirst : (0 : UInt32).toNat + 1 < UInt32.size := by decide
  have hcolumn : ordinal (Diagnostic.ofViolation v).startColumn = .ok "1" := ordinal_of_lt hfirst
  have hshown : ":1: " = ":" ++ "1" ++ ": " := rfl
  rw [entry, hrow, hcolumn, violationEntry, hshown]
  simp only [← String.append_assoc]
  rfl

theorem entry_of_not_isShort (h : ¬IsShort v) (p : Path) :
    entry p (.ofViolation v) = .error .overflow := by
  rw [entry, ordinal_of_not_lt (mt toNat_line_add_one_lt_iff.mp h)]
  rfl

end DiagnosticRelay.Check
