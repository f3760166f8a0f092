import DiagnosticRelay.Text.Utf8
import Mathlib.Data.List.Basic
import Mathlib.Order.Basic

/-!
# The order of texts and of their octets

Texts are ordered by their characters. UTF-8 keeps this order: a longer form
starts with a larger octet, and forms of one length are numbers written in
digits of six bits.

## Main results

* `Octets.ofString_lt_ofString`: smaller texts have smaller octets.
-/

namespace DiagnosticRelay.Octets

/-! ## The octets of a text -/

theorem toList_loop (b : ByteArray) (i : Nat) (read : List UInt8) :
    ByteArray.toList.loop b i read = read.reverse ++ b.data.toList.drop i := by
  fun_induction ByteArray.toList.loop b i read with
  | case1 i read h ih =>
    have hi : i < b.data.toList.length := h
    rw [ih, List.drop_eq_getElem_cons hi, List.reverse_cons, List.append_assoc]
    simp [ByteArray.get!, getElem!_pos b.data i h]
  | case2 i read h =>
    rw [List.drop_eq_nil_of_le (Nat.le_of_not_lt h), List.append_nil]

/-- The octets of a text are those of its characters. -/
theorem ofString_eq_flatMap (s : String) :
    ofString s = s.toList.flatMap String.utf8EncodeChar := by
  have loop : ofString s = s.toByteArray.data.toList := by
    rw [ofString, ByteArray.toList, toList_loop, String.toUTF8_eq_toByteArray]
    rfl
  rw [loop]
  conv_lhs => rw [← String.ofList_toList (s := s)]
  rw [String.toByteArray_ofList, List.utf8Encode, List.toList_data_toByteArray]

/-! ## Octets in order -/

/-- Of two code points, the smaller one has the smaller digits of six bits. -/
theorem digits_lt {v w : Nat} (h : v < w) (hw : w < 0x110000) :
    v / 262144 % 8 < w / 262144 % 8 ∨ v / 262144 % 8 = w / 262144 % 8 ∧
      (v / 4096 % 64 < w / 4096 % 64 ∨ v / 4096 % 64 = w / 4096 % 64 ∧
        (v / 64 % 64 < w / 64 % 64 ∨ v / 64 % 64 = w / 64 % 64 ∧ v % 64 < w % 64)) := by
  have hv : v / 262144 % 8 = v / 262144 := Nat.mod_eq_of_lt (by omega)
  have hw' : w / 262144 % 8 = w / 262144 := Nat.mod_eq_of_lt (by omega)
  rw [hv, hw']
  omega

/-- An octet holds a digit with a mark above it. -/
theorem toNat_ofNat_mod_add (n : Nat) {base mark : Nat} (hbase : 0 < base)
    (h : base + mark ≤ 256) : (UInt8.ofNat (n % base + mark)).toNat = n % base + mark := by
  have hdigit := Nat.mod_lt n hbase
  rw [UInt8.toNat_ofNat']
  exact Nat.mod_eq_of_lt (by omega)

theorem toNat_ofNat_of_le {n : Nat} (h : n ≤ 127) : (UInt8.ofNat n).toNat = n := by
  rw [UInt8.toNat_ofNat']
  exact Nat.mod_eq_of_lt (by omega)

/-- An ASCII character is its own octet. -/
theorem utf8EncodeChar_of_le {c : Char} (h : c.toNat ≤ 127) :
    String.utf8EncodeChar c = [UInt8.ofNat c.toNat] := by
  have hvalue : c.val.toNat ≤ 127 := h
  rw [String.utf8EncodeChar, if_pos hvalue]
  rfl

/-- A smaller character has smaller octets, whatever follows. -/
theorem utf8EncodeChar_append_lt {c d : Char} (h : c < d) (xs ys : Octets) :
    String.utf8EncodeChar c ++ xs < String.utf8EncodeChar d ++ ys := by
  have hlt : c.val.toNat < d.val.toNat := h
  have hbound : d.val.toNat < 0x110000 := by
    rcases d.valid with hd | hd
    · exact Nat.lt_trans hd (by decide)
    · exact hd.2
  have hdigits := digits_lt hlt hbound
  simp only [String.utf8EncodeChar]
  generalize c.val.toNat = v at *
  generalize d.val.toNat = w at *
  -- The cases are the lengths of the two forms.
  split_ifs <;>
    simp (disch := omega) only [List.cons_append, List.nil_append, List.cons_lt_cons_iff,
      UInt8.lt_iff_toNat_lt, ← UInt8.toNat_inj, toNat_ofNat_mod_add, toNat_ofNat_of_le] <;>
    omega

theorem utf8EncodeChar_ne_nil (c : Char) : String.utf8EncodeChar c ≠ [] := by
  simp only [String.utf8EncodeChar]
  split_ifs <;> simp

theorem flatMap_utf8EncodeChar_lt {cs ds : List Char} (h : cs < ds) :
    cs.flatMap String.utf8EncodeChar < ds.flatMap String.utf8EncodeChar := by
  induction h with
  | @nil d ds =>
    obtain ⟨b, bs, hd⟩ := List.exists_cons_of_ne_nil (utf8EncodeChar_ne_nil d)
    rw [List.flatMap_nil, List.flatMap_cons, hd, List.cons_append]
    exact List.nil_lt_cons _ _
  | @cons c cs ds _ ih =>
    rw [List.flatMap_cons, List.flatMap_cons]
    exact List.append_left_lt ih
  | rel hcd =>
    rw [List.flatMap_cons, List.flatMap_cons]
    exact utf8EncodeChar_append_lt hcd _ _

/-- Smaller texts have smaller octets. -/
theorem ofString_lt_ofString {s t : String} (h : s < t) : ofString s < ofString t := by
  rw [ofString_eq_flatMap, ofString_eq_flatMap]
  exact flatMap_utf8EncodeChar_lt (String.lt_iff.mp h)

end DiagnosticRelay.Octets
