import DiagnosticRelay.Proofs.Text.Utf8Order
import Mathlib.Tactic.IntervalCases

/-!
# Texts are read back from their octets

A lossy reading of octets loses nothing of a text: a leading octet announces how many
octets follow and which the first of them may be, and the octets that a character is
written as are among those.

## Main results

* `Octets.lead?_two`, `Octets.lead?_three`, `Octets.lead?_four`: what leads announce.
* `Octets.next_one` to `Octets.next_four`: what a lead and its followers stand for.
* `Octets.next_utf8EncodeChar`: one character is read back, whatever follows.
* `Octets.toStringLossy_ofString`: a text is read back.
-/

namespace DiagnosticRelay.Octets

/-! ## Leads -/

theorem lead?_two {n : Nat} (hlow : 2 ≤ n) (hhigh : n < 32) :
    lead? (UInt8.ofNat (n + 192)) = some ⟨1, 0x80, 0xBF, n⟩ := by
  interval_cases n <;> rfl

/-- The first octet after a lead of three is bounded below for small characters, and above
where surrogates would follow. -/
theorem lead?_three {n : Nat} (hhigh : n < 16) :
    lead? (UInt8.ofNat (n + 224)) =
      some ⟨2, if n = 0 then 0xA0 else 0x80, if n = 13 then 0x9F else 0xBF, n⟩ := by
  interval_cases n <;> rfl

/-- The first octet after a lead of four is bounded below for small characters, and above
at the end of all characters. -/
theorem lead?_four {n : Nat} (hhigh : n < 5) :
    lead? (UInt8.ofNat (n + 240)) =
      some ⟨3, if n = 0 then 0x90 else 0x80, if n = 4 then 0x8F else 0xBF, n⟩ := by
  interval_cases n <;> rfl

theorem not_lt_of_mark {n base mark : Nat} (hbase : n < base) (hmark : 128 ≤ mark)
    (h : base + mark ≤ 256) : ¬ UInt8.ofNat (n + mark) < 0x80 := by
  rw [UInt8.lt_iff_toNat_lt, UInt8.toNat_ofNat', Nat.mod_eq_of_lt (by omega)]
  change ¬ n + mark < 128
  omega

/-! ## Octets that follow -/

theorem tails_zero (low high : UInt8) (bits : Nat) (rest : Octets) :
    tails 0 low high bits rest = (some bits, rest) := by
  cases rest <;> rfl

/-- An octet in its range adds six bits. -/
theorem tails_succ {n digit bits : Nat} {low high : UInt8} (rest : Octets) (hdigit : digit < 64)
    (hlow : low.toNat ≤ digit + 128) (hhigh : digit + 128 ≤ high.toNat) :
    tails (n + 1) low high bits (UInt8.ofNat (digit + 128) :: rest) =
      tails n 0x80 0xBF (bits * 64 + digit) rest := by
  have hvalue : (UInt8.ofNat (digit + 128)).toNat = digit + 128 := by
    rw [UInt8.toNat_ofNat']
    exact Nat.mod_eq_of_lt (by omega)
  have hrange : low ≤ UInt8.ofNat (digit + 128) ∧ UInt8.ofNat (digit + 128) ≤ high := by
    rw [UInt8.le_iff_toNat_le, UInt8.le_iff_toNat_le, hvalue]
    exact ⟨hlow, hhigh⟩
  rw [tails, if_pos hrange, hvalue, Nat.add_sub_cancel]

/-- An octet after the first may have any six bits. -/
theorem tails_succ_of_lt {n digit bits : Nat} (rest : Octets) (hdigit : digit < 64) :
    tails (n + 1) 0x80 0xBF bits (UInt8.ofNat (digit + 128) :: rest) =
      tails n 0x80 0xBF (bits * 64 + digit) rest :=
  tails_succ rest hdigit (Nat.le_add_left 128 digit) (show digit + 128 ≤ 191 by omega)

/-! ## Characters -/

theorem next_one {v : Nat} (hsmall : v ≤ 127) (rest : Octets) :
    next (UInt8.ofNat v) rest = (some (Char.ofNat v), rest) := by
  have hone : UInt8.ofNat v < 0x80 := by
    rw [UInt8.lt_iff_toNat_lt, toNat_ofNat_of_le hsmall]
    exact Nat.lt_succ_of_le hsmall
  rw [next, if_pos hone, toNat_ofNat_of_le hsmall]

theorem next_two {n d : Nat} (hlow : 2 ≤ n) (hn : n < 32) (hd : d < 64) (rest : Octets) :
    next (UInt8.ofNat (n + 192)) (UInt8.ofNat (d + 128) :: rest) =
      (some (Char.ofNat (n * 64 + d)), rest) := by
  rw [next, if_neg (not_lt_of_mark hn (by decide) (by decide)), lead?_two hlow hn]
  simp only
  rw [tails_succ_of_lt _ hd, tails_zero, Option.map_some]

/-- A small character would have a shorter form, and a surrogate has none. -/
theorem next_three {n d e : Nat} (hn : n < 16) (hd : d < 64) (he : e < 64)
    (hlow : n = 0 → 32 ≤ d) (hhigh : n = 13 → d < 32) (rest : Octets) :
    next (UInt8.ofNat (n + 224)) (UInt8.ofNat (d + 128) :: UInt8.ofNat (e + 128) :: rest) =
      (some (Char.ofNat ((n * 64 + d) * 64 + e)), rest) := by
  have hmin : (if n = 0 then 0xA0 else 0x80 : UInt8).toNat ≤ d + 128 := by
    split_ifs with hzero
    · exact Nat.add_le_add_right (hlow hzero) 128
    · exact Nat.le_add_left 128 d
  have hmax : d + 128 ≤ (if n = 13 then 0x9F else 0xBF : UInt8).toNat := by
    split_ifs with hlast
    · exact Nat.add_le_add_right (Nat.le_of_lt_succ (hhigh hlast)) 128
    · exact Nat.add_le_add_right (Nat.le_of_lt_succ hd) 128
  rw [next, if_neg (not_lt_of_mark hn (by decide) (by decide)), lead?_three hn]
  simp only
  rw [tails_succ _ hd hmin hmax, tails_succ_of_lt _ he, tails_zero, Option.map_some]

/-- A small character would have a shorter form, and there are none beyond the last. -/
theorem next_four {n d e f : Nat} (hn : n < 5) (hd : d < 64) (he : e < 64) (hf : f < 64)
    (hlow : n = 0 → 16 ≤ d) (hhigh : n = 4 → d < 16) (rest : Octets) :
    next (UInt8.ofNat (n + 240))
        (UInt8.ofNat (d + 128) :: UInt8.ofNat (e + 128) :: UInt8.ofNat (f + 128) :: rest) =
      (some (Char.ofNat (((n * 64 + d) * 64 + e) * 64 + f)), rest) := by
  have hmin : (if n = 0 then 0x90 else 0x80 : UInt8).toNat ≤ d + 128 := by
    split_ifs with hzero
    · exact Nat.add_le_add_right (hlow hzero) 128
    · exact Nat.le_add_left 128 d
  have hmax : d + 128 ≤ (if n = 4 then 0x8F else 0xBF : UInt8).toNat := by
    split_ifs with hlast
    · exact Nat.add_le_add_right (Nat.le_of_lt_succ (hhigh hlast)) 128
    · exact Nat.add_le_add_right (Nat.le_of_lt_succ hd) 128
  rw [next, if_neg (not_lt_of_mark hn (by decide) (by decide)), lead?_four hn]
  simp only
  rw [tails_succ _ hd hmin hmax, tails_succ_of_lt _ he, tails_succ_of_lt _ hf, tails_zero,
    Option.map_some]

/-- A character is read back from what it is written as, whatever follows. -/
theorem next_utf8EncodeChar (c : Char) (rest : Octets) :
    ∃ b bs, String.utf8EncodeChar c = b :: bs ∧ next b (bs ++ rest) = (some c, rest) := by
  have hvalid := c.valid
  have hback : Char.ofNat c.val.toNat = c := Char.ofNat_toNat c
  have hdigit (n : Nat) : n % 64 < 64 := Nat.mod_lt n (by decide)
  simp only [UInt32.isValidChar, Nat.isValidChar] at hvalid
  simp only [String.utf8EncodeChar]
  generalize c.val.toNat = v at *
  -- The form has as many octets as the character needs.
  split_ifs with hone htwo hthree
  · refine ⟨_, _, rfl, ?_⟩
    rw [List.nil_append, next_one hone, hback]
  · refine ⟨_, _, rfl, ?_⟩
    have hvalue : (v / 64 % 32) * 64 + v % 64 = v := by omega
    rw [List.cons_append, List.nil_append,
      next_two (by omega) (Nat.mod_lt _ (by decide)) (hdigit _), hvalue, hback]
  · refine ⟨_, _, rfl, ?_⟩
    have hvalue : ((v / 4096 % 16) * 64 + v / 64 % 64) * 64 + v % 64 = v := by omega
    simp only [List.cons_append, List.nil_append]
    rw [next_three (Nat.mod_lt _ (by decide)) (hdigit _) (hdigit _) (by omega) (by omega), hvalue,
      hback]
  · refine ⟨_, _, rfl, ?_⟩
    have hvalue : (((v / 262144 % 8) * 64 + v / 4096 % 64) * 64 + v / 64 % 64) * 64 + v % 64 = v := by
      omega
    simp only [List.cons_append, List.nil_append]
    rw [next_four (by omega) (hdigit _) (hdigit _) (hdigit _) (by omega) (by omega), hvalue, hback]

/-- The characters of a text are read back from its octets. -/
theorem decodeLossy_flatMap (cs : List Char) :
    decodeLossy (cs.flatMap String.utf8EncodeChar) = cs := by
  induction cs with
  | nil => rw [List.flatMap_nil, decodeLossy]
  | cons c cs ih =>
    obtain ⟨b, bs, hform, hnext⟩ := next_utf8EncodeChar c (cs.flatMap String.utf8EncodeChar)
    rw [List.flatMap_cons, hform, List.cons_append, decodeLossy, hnext, ih]
    rfl

/-- A text is read back from its octets. -/
@[simp] theorem toStringLossy_ofString (s : String) : toStringLossy (ofString s) = s := by
  rw [toStringLossy, ofString_eq_flatMap, decodeLossy_flatMap, String.ofList_toList]

/-- Different texts have different octets. -/
theorem ofString_injective : Function.Injective ofString :=
  Function.LeftInverse.injective toStringLossy_ofString

end DiagnosticRelay.Octets
