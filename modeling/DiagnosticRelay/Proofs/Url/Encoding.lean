import DiagnosticRelay.Proofs.Text.Utf8Order
import DiagnosticRelay.Url.Encoding
import Mathlib.Data.List.Basic
import Mathlib.Tactic.IntervalCases

/-!
# Percent-encoding loses nothing

A place that encodes `%` can hold any octets: what is written there is read back.

## Main results

* `decode_encode`: encoded octets are read back.
-/

namespace DiagnosticRelay.Url

variable {set : Set}

/-- A digit is read back. -/
theorem hexValue?_upperHex {n : Nat} (h : n < 16) : hexValue? (upperHex n) = some n := by
  interval_cases n <;> rfl

/-- An octet written with two digits is read back. -/
theorem hexOctet?_upperHex (b : UInt8) :
    hexOctet? (upperHex (b.toNat / 16)) (upperHex (b.toNat % 16)) = some b := by
  have hbound := b.toNat_lt
  rw [hexOctet?, hexValue?_upperHex (by omega), hexValue?_upperHex (by omega)]
  simp only [Nat.div_add_mod', UInt8.ofNat_toNat]

theorem ofString_singleton {c : Char} (h : c.toNat ≤ 0x7F) :
    Octets.ofString (String.singleton c) = [UInt8.ofNat c.toNat] := by
  rw [Octets.ofString_eq_flatMap, String.toList_singleton, List.flatMap_singleton,
    Octets.utf8EncodeChar_of_le h]

theorem decode_cons_of_ne {c : Char} (h : c ≠ '%') (rest : List Char) :
    decode (c :: rest) = Octets.ofString (String.singleton c) ++ decode rest := by
  rw [decode]
  intro _ _ _ hpercent
  exact absurd hpercent h

/-- An octet that is not encoded is a character of its own. -/
theorem encodeOctet_of_not_isEncoded {b : UInt8} (h : isEncoded set b = false) :
    ∃ c : Char, encodeOctet set b = [c] ∧ c.toNat = b.toNat ∧
      (0x20 ≤ c.toNat ∧ c.toNat < 0x7F) ∧ c ∉ set := by
  have hencoded := h
  simp only [isEncoded, Bool.or_eq_false_iff, decide_eq_false_iff_not, UInt8.not_lt,
    UInt8.not_le] at h
  obtain ⟨⟨hcontrol, hdelete⟩, hplain⟩ := h
  have hlow : 0x20 ≤ b.toNat := hcontrol
  have hhigh : b.toNat < 0x7F := hdelete
  have hvalid : b.toNat.isValidChar := Or.inl (by omega)
  have hvalue : (Char.ofNat b.toNat).toNat = b.toNat := by
    rw [Char.ofNat, dif_pos hvalid]
    rfl
  refine ⟨Char.ofNat b.toNat, by rw [encodeOctet, hencoded]; rfl, hvalue, by omega, ?_⟩
  rwa [List.contains_eq_mem, decide_eq_false_iff_not] at hplain

/-- The octets written in a place that encodes `%` are read back. -/
theorem decode_encode (hset : '%' ∈ set) (octets : Octets) : decode (encode set octets) = octets := by
  induction octets with
  | nil => rfl
  | cons b rest ih =>
    rw [encode, List.flatMap_cons]
    cases h : isEncoded set b with
    | true =>
      rw [encodeOctet, if_pos h, List.cons_append, List.cons_append, List.cons_append,
        List.nil_append, decode, hexOctet?_upperHex]
      exact congrArg _ ih
    | false =>
      obtain ⟨c, hc, hvalue, hascii, hplain⟩ := encodeOctet_of_not_isEncoded h
      have hne : c ≠ '%' := fun hpercent => hplain (hpercent ▸ hset)
      rw [hc, List.singleton_append, decode_cons_of_ne hne, ofString_singleton (by omega), hvalue,
        UInt8.ofNat_toNat, List.singleton_append]
      exact congrArg _ ih

@[simp] theorem encodeChars_nil : encodeChars set [] = [] := by
  rw [encodeChars, Octets.ofString_eq_flatMap, String.toList_ofList]
  rfl

/-- The characters written in a place that encodes `%` are read back as their octets. -/
theorem decode_encodeChars (hset : '%' ∈ set) (s : String) :
    decode (encodeChars set s.toList) = Octets.ofString s := by
  rw [encodeChars, String.ofList_toList, decode_encode hset]

end DiagnosticRelay.Url
