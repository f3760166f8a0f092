import DiagnosticRelay.Diagnostic.Published
import DiagnosticRelay.Proofs.Diagnostic.Line
import DiagnosticRelay.Proofs.Text.Utf16
import Mathlib

/-!
# Where diagnostics stand

A violation has a line of 64 bits or none, and a message of any length. Its diagnostic stands
where the integers say, up to the largest number of 32 bits: on the line before, and as wide
as the message has UTF-16 units. So it covers a range of one line, in an editor too.

## Main definitions

* `Span.IsWithinLine`: a range of one line that does not run backwards.
* `Diagnostic.IsPlaced`: what is promised of the place of a diagnostic.

## Main results

* `Diagnostic.toInt_line_ofViolation`, `Diagnostic.toNat_endColumn_ofViolation`: line and
  width of a diagnostic as plain numbers.
* `Diagnostic.ofViolation_isPlaced`: every violation is placed so.
-/

namespace DiagnosticRelay

/-- A range of one line that does not run backwards. -/
def Span.IsWithinLine (s : Span) : Prop :=
  s.start.line = s.stop.line ∧ s.start.character ≤ s.stop.character

namespace Diagnostic

open Text (utf16)

variable {v w : Violation} {m n : Int64}

/-! ## Lines -/

theorem line_ofViolation_of_none (h : v.line = none) : (ofViolation v).line = 0 := by
  rw [ofViolation, h]
  rfl

/-- The line is that of the integers, cut off at zero and at the largest number. -/
theorem toInt_line_ofViolation (h : v.line = some n) :
    ((ofViolation v).line.toNat : Int) = min (max (n.toInt - 1) 0) (2 ^ 32 - 1) := by
  have hlargest : largest = 2 ^ 32 - 1 := rfl
  rw [ofViolation, h, toNat_lineOf, hlargest, Option.map_some, Option.getD_some]
  omega

/-- A later line has a later diagnostic, or one on the same line. -/
theorem line_ofViolation_le (hv : v.line = some m) (hw : w.line = some n) (hle : m ≤ n) :
    (ofViolation v).line ≤ (ofViolation w).line := by
  have hlow := toInt_line_ofViolation hv
  have hhigh := toInt_line_ofViolation hw
  rw [Int64.le_iff_toInt_le] at hle
  rw [UInt32.le_iff_toNat_le]
  omega

/-! ## Columns -/

theorem toNat_endColumn_ofViolation (v : Violation) :
    (ofViolation v).endColumn.toNat = min (utf16 v.message).length (2 ^ 32 - 1) := by
  rw [Text.length_utf16]
  exact toNat_clamp _

/-! ## Places -/

/-- Where the diagnostic of a violation stands, in 32 bits and for an editor. -/
structure IsPlaced (v : Violation) : Prop where
  line_of_none : v.line = none → (ofViolation v).line = 0
  /-- Counting down stays within 64 bits. -/
  lineBefore_eq : ∀ n, v.line = some n →
    (lineBefore n).toInt = max (n.toInt - 1) Int64.minValue.toInt
  line_eq : ∀ n, v.line = some n →
    ((ofViolation v).line.toNat : Int) = min (max (n.toInt - 1) 0) (2 ^ 32 - 1)
  line_le : ∀ w m n, v.line = some m → w.line = some n → m ≤ n →
    (ofViolation v).line ≤ (ofViolation w).line
  startColumn_eq : (ofViolation v).startColumn = 0
  endColumn_eq : (ofViolation v).endColumn.toNat = min (utf16 v.message).length (2 ^ 32 - 1)
  /-- The message has no more units than octets, so counting them stays within the size of
  what is kept. -/
  units_le : (utf16 v.message).length ≤ (Octets.ofString v.message).length
  span_isWithinLine : ∀ document, ((ofViolation v).publish document).span.IsWithinLine
  /-- A tip is placed where the diagnostic is. -/
  related_eq : ∀ document, ((ofViolation v).publish document).related =
    v.tip.map fun tip => [⟨document, ((ofViolation v).publish document).span, tip⟩]

/-- Every violation is placed as the integers and the units of its message say. Units add
up when messages are put together: a character above `U+FFFF` has two, which are its
surrogates, and every other one, which is its number. -/
theorem ofViolation_isPlaced :
    (∀ v, IsPlaced v) ∧ (∀ s t, (utf16 (s ++ t)).length = (utf16 s).length + (utf16 t).length) ∧
      (∀ c : Char, 0xFFFF < c.toNat →
        ∃ high low, utf16 (String.singleton c) = [high, low] ∧ Text.IsPairOf c high low) ∧
      ∀ c : Char, c.toNat ≤ 0xFFFF →
        ∃ unit, utf16 (String.singleton c) = [unit] ∧ unit.toNat = c.toNat := by
  refine ⟨fun v => ?_, fun s t => ?_, fun _ => Text.exists_surrogates, fun _ => Text.exists_unit⟩
  · exact {
      line_of_none := line_ofViolation_of_none
      lineBefore_eq := fun n _ => toInt_lineBefore n
      line_eq := fun _ => toInt_line_ofViolation
      line_le := fun _ _ _ => line_ofViolation_le
      startColumn_eq := rfl
      endColumn_eq := toNat_endColumn_ofViolation v
      units_le := Text.length_utf16_le v.message
      span_isWithinLine := fun _ => ⟨rfl, UInt32.zero_le⟩
      related_eq := fun _ => rfl }
  · rw [Text.utf16_append, List.length_append]

/-- The least line and the last one, and a message that is a pair of surrogates. -/
example :
    (ofViolation { message := "", line := some Int64.minValue }).line = 0 ∧
      (ofViolation { message := "", line := some Int64.maxValue }).line = 0xFFFFFFFF ∧
      (ofViolation { message := "🐘" }).endColumn = 2 := by
  decide +kernel

end Diagnostic

end DiagnosticRelay
