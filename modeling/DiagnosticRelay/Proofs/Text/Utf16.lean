import DiagnosticRelay.Proofs.Text.Utf8Order
import DiagnosticRelay.Text.Units

/-!
# UTF-16

A character up to `U+FFFF` is one unit, its own number. Any other is a pair: what its number
has above `U+FFFF` takes twenty bits, and the two surrogates carry ten of them each.

## Main definitions

* `Text.charUtf16`: the units of a character.
* `Text.utf16`: the units of a text.
* `Text.IsPairOf`: the surrogates of a character.

## Main results

* `Text.exists_unit`, `Text.exists_surrogates`: the number of a character is read off its
  units.
* `Text.length_utf16`: counting the units of a text without writing them.
* `Text.length_utf16_le`: a text has no more units than octets.
-/

namespace DiagnosticRelay.Text

/-- The UTF-16 units of a character. -/
def charUtf16 (c : Char) : List UInt16 :=
  if c.toNat ≤ 0xFFFF then [UInt16.ofNat c.toNat]
  else
    let bits := c.toNat - 0x10000
    [UInt16.ofNat (0xD800 + bits / 0x400), UInt16.ofNat (0xDC00 + bits % 0x400)]

/-- The UTF-16 units of a text. -/
def utf16 (s : String) : List UInt16 := s.toList.flatMap charUtf16

/-- A high and a low surrogate from which the number of a character is read. -/
def IsPairOf (c : Char) (high low : UInt16) : Prop :=
  (0xD800 ≤ high.toNat ∧ high.toNat < 0xDC00) ∧ (0xDC00 ≤ low.toNat ∧ low.toNat < 0xE000) ∧
    c.toNat = 0x10000 + (high.toNat - 0xD800) * 0x400 + (low.toNat - 0xDC00)

theorem utf16_append (s t : String) : utf16 (s ++ t) = utf16 s ++ utf16 t := by
  rw [utf16, String.toList_append, List.flatMap_append, utf16, utf16]

theorem utf16_singleton (c : Char) : utf16 (String.singleton c) = charUtf16 c := by
  simp [utf16]

/-- A character up to `U+FFFF` is its own unit. -/
theorem exists_unit {c : Char} (h : c.toNat ≤ 0xFFFF) :
    ∃ unit, utf16 (String.singleton c) = [unit] ∧ unit.toNat = c.toNat := by
  refine ⟨UInt16.ofNat c.toNat, ?_, ?_⟩
  · rw [utf16_singleton]
    exact if_pos h
  · rw [UInt16.toNat_ofNat']
    exact Nat.mod_eq_of_lt (by omega)

/-- A character above `U+FFFF` is a pair of surrogates. -/
theorem exists_surrogates {c : Char} (h : 0xFFFF < c.toNat) :
    ∃ high low, utf16 (String.singleton c) = [high, low] ∧ IsPairOf c high low := by
  have hlast : c.toNat < 0x110000 := by
    have hvalid := c.valid
    simp only [UInt32.isValidChar, Nat.isValidChar] at hvalid
    change c.val.toNat < _
    omega
  refine ⟨UInt16.ofNat (0xD800 + (c.toNat - 0x10000) / 0x400),
    UInt16.ofNat (0xDC00 + (c.toNat - 0x10000) % 0x400), ?_, ?_⟩
  · rw [utf16_singleton]
    exact if_neg (by omega)
  · simp only [IsPairOf, UInt16.toNat_ofNat']
    omega

theorem length_charUtf16 (c : Char) : (charUtf16 c).length = unitCount c := by
  rw [charUtf16, unitCount]
  split_ifs with hlow hhigh
  · omega
  · rfl
  · rfl
  · omega

/-- The units of a text are counted character by character. -/
theorem length_utf16 (s : String) : (utf16 s).length = units s := by
  rw [utf16, units]
  induction s.toList with
  | nil => rfl
  | cons c rest ih => rw [List.flatMap_cons, List.length_append, length_charUtf16, ih, unitsOf]

/-- A character has no more units than octets. -/
theorem unitCount_le (c : Char) : unitCount c ≤ (String.utf8EncodeChar c).length := by
  have hvalue : c.val.toNat = c.toNat := rfl
  rw [unitCount, String.utf8EncodeChar, hvalue]
  split_ifs <;> simp only [List.length_cons, List.length_nil] <;> omega

/-- A text has no more units than octets, so that its units can be counted wherever it is
kept. -/
theorem length_utf16_le (s : String) : (utf16 s).length ≤ (Octets.ofString s).length := by
  rw [utf16, Octets.ofString_eq_flatMap]
  induction s.toList with
  | nil => exact Nat.le_refl 0
  | cons c rest ih =>
    have hc := unitCount_le c
    rw [List.flatMap_cons, List.flatMap_cons, List.length_append, List.length_append,
      length_charUtf16]
    omega

end DiagnosticRelay.Text
