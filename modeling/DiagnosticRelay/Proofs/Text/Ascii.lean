import DiagnosticRelay.Proofs.Text.Lossless
import Mathlib

/-!
# ASCII characters among octets

An ASCII character is its own octet, and neither the octets of other characters nor what is
read instead of octets that are no text can be taken for one. So a text can be taken apart
at its ASCII characters octet by octet, and a lossy reading begins with one only where the
octets do.

## Main definitions

* `Octets.IsText`: octets that are a text.

## Main results

* `Octets.notMem_utf8EncodeChar`: an ASCII octet is in no other character.
* `Octets.head?_toStringLossy_iff`: a lossy reading that begins with an ASCII character.
-/

namespace DiagnosticRelay.Octets

variable {octets rest : Octets} {b : UInt8} {c : Char}

/-! ## Octets of characters -/

/-- The octets of a character that is not an ASCII one are no ASCII octets. -/
theorem le_of_mem_utf8EncodeChar (h : 0x80 ≤ c.toNat) (hb : b ∈ String.utf8EncodeChar c) :
    0x80 ≤ b := by
  have hvalue : ¬ c.val.toNat ≤ 127 := Nat.not_le_of_lt h
  have hmarked (n : Nat) {base mark : Nat} (hbase : 0 < base) (hmark : 128 ≤ mark)
      (hsum : base + mark ≤ 256) : 0x80 ≤ UInt8.ofNat (n % base + mark) := by
    rw [UInt8.le_iff_toNat_le, toNat_ofNat_mod_add n hbase hsum]
    exact Nat.le_trans hmark (Nat.le_add_left _ _)
  -- Every octet of a longer form carries a mark of 0x80 or more.
  rw [String.utf8EncodeChar, if_neg hvalue] at hb
  split_ifs at hb <;> simp only [List.mem_cons, List.not_mem_nil, or_false] at hb
  · rcases hb with rfl | rfl <;> exact hmarked _ (by decide) (by decide) (by decide)
  · rcases hb with rfl | rfl | rfl <;> exact hmarked _ (by decide) (by decide) (by decide)
  · rcases hb with rfl | rfl | rfl | rfl <;> exact hmarked _ (by decide) (by decide) (by decide)

/-- An ASCII octet is in no other character. -/
theorem notMem_utf8EncodeChar (hb : b < 0x80) (hne : c.toNat ≠ b.toNat) :
    b ∉ String.utf8EncodeChar c := by
  intro hmem
  by_cases hascii : c.toNat < 0x80
  · have hle := Nat.le_of_lt_succ hascii
    rw [utf8EncodeChar_of_le hle, List.mem_singleton] at hmem
    rw [hmem, toNat_ofNat_of_le hle] at hne
    exact hne rfl
  · have hhigh := le_of_mem_utf8EncodeChar (Nat.le_of_not_lt hascii) hmem
    exact absurd hhigh (UInt8.not_le.mpr hb)

/-! ## Texts -/

/-- Octets that are a text. -/
def IsText (octets : Octets) : Prop := ∃ s, octets = ofString s

theorem isText_flatMap (cs : List Char) : IsText (cs.flatMap String.utf8EncodeChar) :=
  ⟨String.ofList cs, by rw [ofString_eq_flatMap, String.toList_ofList]⟩

theorem isText_nil : IsText [] := isText_flatMap []

theorem isText_utf8EncodeChar (c : Char) : IsText (String.utf8EncodeChar c) :=
  List.flatMap_singleton String.utf8EncodeChar c ▸ isText_flatMap [c]

theorem isText_iff :
    IsText octets ↔ ∃ cs : List Char, octets = cs.flatMap String.utf8EncodeChar := by
  constructor
  · rintro ⟨s, rfl⟩
    exact ⟨s.toList, ofString_eq_flatMap s⟩
  · rintro ⟨cs, rfl⟩
    exact isText_flatMap cs

theorem IsText.append (h : IsText octets) (h' : IsText rest) : IsText (octets ++ rest) := by
  obtain ⟨cs, rfl⟩ := isText_iff.mp h
  obtain ⟨ds, rfl⟩ := isText_iff.mp h'
  rw [← List.flatMap_append]
  exact isText_flatMap _

/-- A text is what it is read as. -/
theorem isText_iff_ofString_toStringLossy :
    IsText octets ↔ ofString (toStringLossy octets) = octets := by
  constructor
  · rintro ⟨s, rfl⟩
    rw [toStringLossy_ofString]
  · intro h
    exact ⟨_, h.symm⟩

/-! ## Lossy readings -/

/-- What follows a lead only adds to its bits. -/
theorem mul_le_of_tails {n : Nat} {low high : UInt8} {bits v : Nat}
    (h : (tails n low high bits rest).1 = some v) : bits * 64 ^ n ≤ v := by
  fun_induction tails n low high bits rest with
  | case1 low high bits rest =>
    rw [← Option.some.inj h]
    omega
  | case2 => cases h
  | case3 n low high bits b rest hrange ih =>
    refine Nat.le_trans ?_ (ih h)
    rw [Nat.pow_succ', ← Nat.mul_assoc]
    exact Nat.mul_le_mul_right _ (Nat.le_add_right _ _)
  | case4 => cases h

/-- The first octet that follows a lead adds as much as it has to at least. -/
theorem add_mul_le_of_tails {n : Nat} {low high : UInt8} {bits v : Nat}
    (h : (tails (n + 1) low high bits rest).1 = some v) :
    (bits * 64 + (low.toNat - 0x80)) * 64 ^ n ≤ v := by
  cases rest with
  | nil => cases h
  | cons b rest =>
    rw [tails] at h
    split_ifs at h with hrange
    have hlow : low.toNat ≤ b.toNat := hrange.1
    exact Nat.le_trans (Nat.mul_le_mul_right _ (by omega)) (mul_le_of_tails h)

/-- A lead asks for as much as makes a character that is no ASCII one. -/
theorem le_of_lead? {l : Lead} (h : lead? b = some l) :
    ∃ n, l.following = n + 1 ∧ 0x80 ≤ (l.bits * 64 + (l.low.toNat - 0x80)) * 64 ^ n := by
  rw [lead?] at h
  split_ifs at h with htwo hthree hsurrogate hmore hfour hmost hlast <;>
    obtain rfl := Option.some.inj h
  · have hlow : 0xC2 ≤ b.toNat := htwo.1
    exact ⟨0, rfl, by simp only [Nat.pow_zero]; omega⟩
  · exact ⟨1, rfl, by decide⟩
  · exact ⟨1, rfl, by decide⟩
  · have hlow : 0xE1 ≤ b.toNat := hmore.1
    exact ⟨1, rfl, by simp only [Nat.pow_one]; omega⟩
  · exact ⟨2, rfl, by decide⟩
  · have hlow : 0xF1 ≤ b.toNat := hmost.1
    exact ⟨2, rfl, by simp only [Nat.reducePow]; omega⟩
  · exact ⟨2, rfl, by decide⟩

/-- What begins with an octet that is no ASCII one is not read as an ASCII character. -/
theorem toNat_of_next (hb : ¬ b < 0x80) (h : (next b rest).1 = some c) :
    c.toNat = 0 ∨ 0x80 ≤ c.toNat := by
  rw [next, if_neg hb] at h
  split at h
  · cases h
  next l hlead =>
    obtain ⟨v, hv, rfl⟩ := Option.map_eq_some_iff.mp h
    obtain ⟨n, hfollowing, hle⟩ := le_of_lead? hlead
    rw [hfollowing] at hv
    -- A number that is no character would be made the character with the number 0.
    rw [Char.toNat_ofNat]
    split_ifs
    · exact .inr (Nat.le_trans hle (add_mul_le_of_tails hv))
    · exact .inl rfl

/-- A lossy reading begins with an ASCII character where the octets begin with it. -/
theorem head?_toStringLossy_iff (hpos : 0 < c.toNat) (hascii : c.toNat < 0x80) :
    (toStringLossy octets).toList.head? = some c ↔
      octets.head? = some (UInt8.ofNat c.toNat) := by
  have hvalue := toNat_ofNat_of_le (Nat.le_of_lt_succ hascii)
  rw [toStringLossy, String.toList_ofList]
  cases octets with
  | nil => simp [decodeLossy]
  | cons b rest =>
    rw [decodeLossy, List.head?_cons, List.head?_cons, Option.some_inj, Option.some_inj]
    by_cases hb : b < 0x80
    · rw [next, if_pos hb, Option.getD_some]
      constructor
      · rintro rfl
        have hvalid : b.toNat.isValidChar :=
          .inl (Nat.lt_of_lt_of_le (UInt8.lt_iff_toNat_lt.mp hb) (by decide))
        rw [← UInt8.toNat_inj, hvalue, Char.toNat_ofNat, if_pos hvalid]
      · rintro rfl
        rw [hvalue, Char.ofNat_toNat]
    · -- Another octet is read as U+FFFD or, with those behind it, as some other character.
      refine iff_of_false (fun heq => ?_) (fun heq => hb ?_)
      · cases hnext : (next b rest).1 with
        | none =>
          rw [hnext, Option.getD_none] at heq
          rw [← heq] at hascii
          revert hascii
          decide
        | some d =>
          rw [hnext, Option.getD_some] at heq
          have hd := toNat_of_next hb hnext
          rw [heq] at hd
          omega
      · rw [heq, UInt8.lt_iff_toNat_lt, hvalue]
        exact hascii

/-- A lossy reading is empty only where there is nothing to read. -/
theorem toStringLossy_eq_empty_iff : toStringLossy octets = "" ↔ octets = [] := by
  cases octets with
  | nil => simp [toStringLossy, decodeLossy]
  | cons b rest =>
    rw [toStringLossy, decodeLossy]
    simp

end DiagnosticRelay.Octets
