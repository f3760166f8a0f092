/-!
# UTF-8 text

Paths, process output and percent-encoded names are octet strings that usually,
but not always, hold UTF-8 text. Decoding is strict (`decode?`) or lossy
(`decodeLossy`); the lossy reading replaces each maximal ill-formed part by one
replacement character.

## Main definitions

* `Octets`: a string of octets.
* `Octets.ofString`: the UTF-8 form of a text.
* `Octets.decode?`: the text of a well-formed octet string.
* `Octets.decodeLossy`: the text of any octet string.
-/

namespace DiagnosticRelay

/-- A string of octets. -/
abbrev Octets := List UInt8

namespace Octets

/-- The UTF-8 form of a text. -/
def ofString (text : String) : Octets := text.toUTF8.toList

/-- What a leading octet announces: how many octets follow, the range of the
first of them, and the bits of the code point it carries itself. -/
structure Lead where
  following : Nat
  low : UInt8
  high : UInt8
  bits : Nat

/-- The announcement of an octet above `0x7F`, if it can lead at all. -/
def lead? (b : UInt8) : Option Lead :=
  if 0xC2 ≤ b ∧ b ≤ 0xDF then some ⟨1, 0x80, 0xBF, b.toNat - 0xC0⟩
  else if b = 0xE0 then some ⟨2, 0xA0, 0xBF, 0⟩
  else if b = 0xED then some ⟨2, 0x80, 0x9F, 0xD⟩
  else if 0xE1 ≤ b ∧ b ≤ 0xEF then some ⟨2, 0x80, 0xBF, b.toNat - 0xE0⟩
  else if b = 0xF0 then some ⟨3, 0x90, 0xBF, 0⟩
  else if 0xF1 ≤ b ∧ b ≤ 0xF3 then some ⟨3, 0x80, 0xBF, b.toNat - 0xF0⟩
  else if b = 0xF4 then some ⟨3, 0x80, 0x8F, 4⟩
  else none

/-- Reads the octets that follow a lead. The code point is absent when one of
them is missing or out of range; the octets read up to there are consumed. -/
def tails : Nat → UInt8 → UInt8 → Nat → Octets → Option Nat × Octets
  | 0, _, _, bits, rest => (some bits, rest)
  | _ + 1, _, _, _, [] => (none, [])
  | n + 1, low, high, bits, b :: rest =>
    if low ≤ b ∧ b ≤ high then tails n 0x80 0xBF (bits * 64 + (b.toNat - 0x80)) rest
    else (none, b :: rest)

/-- Reading the following octets never lengthens what is left. -/
theorem length_tails_le (n : Nat) (low high : UInt8) (bits : Nat) (rest : Octets) :
    (tails n low high bits rest).2.length ≤ rest.length := by
  induction rest generalizing n low high bits with
  | nil => cases n <;> simp [tails]
  | cons b rest ih =>
    cases n with
    | zero => simp [tails]
    | succ n =>
      simp only [tails]
      split
      · exact Nat.le_succ_of_le (ih _ _ _ _)
      · simp

/-- Reads one character. It is absent when the octets at the front are
ill-formed; the maximal ill-formed part is consumed. -/
def next (b : UInt8) (rest : Octets) : Option Char × Octets :=
  if b < 0x80 then (some (Char.ofNat b.toNat), rest)
  else match lead? b with
    | none => (none, rest)
    | some l =>
      let r := tails l.following l.low l.high l.bits rest
      (r.1.map Char.ofNat, r.2)

/-- Reading a character consumes at least its first octet. -/
theorem length_next_le (b : UInt8) (rest : Octets) : (next b rest).2.length ≤ rest.length := by
  unfold next
  split
  · simp
  · split
    · simp
    · exact length_tails_le ..

/-- The characters of an octet string, with `U+FFFD` for each maximal
ill-formed part. -/
def decodeLossy : Octets → List Char
  | [] => []
  | b :: rest => (next b rest).1.getD '\uFFFD' :: decodeLossy (next b rest).2
termination_by octets => octets.length
decreasing_by
  have := length_next_le b rest
  simp
  omega

/-- The characters of a well-formed octet string. -/
def decode? : Octets → Option (List Char)
  | [] => some []
  | b :: rest =>
    match (next b rest).1 with
    | none => none
    | some c => (decode? (next b rest).2).map (c :: ·)
termination_by octets => octets.length
decreasing_by
  have := length_next_le b rest
  simp
  omega

/-- The text of an octet string, with `U+FFFD` for what is not text. -/
def toStringLossy (octets : Octets) : String := String.ofList octets.decodeLossy

/-- The text of an octet string that is well-formed UTF-8. -/
def toString? (octets : Octets) : Option String := octets.decode?.map String.ofList

end Octets

end DiagnosticRelay
