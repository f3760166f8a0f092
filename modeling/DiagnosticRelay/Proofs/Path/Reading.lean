import DiagnosticRelay.Proofs.Path.LastName
import DiagnosticRelay.Proofs.Text.Ascii

/-!
# Paths that are read as texts

A path is passed on as a text, with `U+FFFD` for what is none. The separator is an ASCII
character, so a text has only texts between its separators. So what is read has the same
components exactly if the names in the path are texts, while it always starts with a
separator where the path does.

## Main results

* `isText_iff_forall_isText`: a text is texts with separators between them.
* `isAbsolute_ofString_display`: a path is read as an absolute one only if it is one.
* `filterMap_split_ofString_display`: what is read says the same where all names are texts.
-/

namespace DiagnosticRelay.Path

variable {p : Path} {octets rest front part : Octets} {parts : List Octets}

/-! ## Parts of texts -/

theorem utf8EncodeChar_separator : String.utf8EncodeChar '/' = [separator] :=
  Octets.utf8EncodeChar_of_le (by decide)

theorem toNat_ne_separator {c : Char} (h : c ≠ '/') : c.toNat ≠ separator.toNat :=
  fun heq => h (Char.toNat_inj.mp heq)

/-- What holds no separator belongs to the first part. -/
theorem split_append_of_notMem (hfront : separator ∉ front) (hrest : split rest = part :: parts) :
    split (front ++ rest) = (front ++ part) :: parts := by
  induction front with
  | nil => exact hrest
  | cons b front ih =>
    obtain ⟨hb, hfront⟩ := not_or.mp (mt List.mem_cons.mpr hfront)
    rw [List.cons_append, split, if_neg (Ne.symm hb), ih hfront]
    rfl

/-- Between the separators of a text there are texts. -/
theorem isText_of_mem_split (h : octets.IsText) : ∀ part ∈ split octets, Octets.IsText part := by
  obtain ⟨cs, rfl⟩ := Octets.isText_iff.mp h
  clear h
  -- A separator begins another part, and any other character belongs to the first one.
  induction cs with
  | nil => exact List.forall_mem_singleton.mpr (Octets.isText_nil)
  | cons c cs ih =>
    rw [List.flatMap_cons]
    by_cases hc : c = '/'
    · rw [hc, utf8EncodeChar_separator, List.singleton_append, split_separator_cons]
      exact List.forall_mem_cons.mpr ⟨Octets.isText_nil, ih⟩
    · obtain ⟨part, parts, hsplit⟩ := List.exists_cons_of_ne_nil
        (split_ne_nil (cs.flatMap String.utf8EncodeChar))
      have hchar := Octets.notMem_utf8EncodeChar (by decide) (toNat_ne_separator hc)
      rw [hsplit] at ih
      obtain ⟨hpart, hparts⟩ := List.forall_mem_cons.mp ih
      rw [split_append_of_notMem hchar hsplit]
      exact List.forall_mem_cons.mpr ⟨(Octets.isText_utf8EncodeChar c).append hpart, hparts⟩

/-- Texts with separators between them are a text. -/
theorem isText_unsplit (h : ∀ part ∈ parts, Octets.IsText part) :
    Octets.IsText (unsplit parts) := by
  induction parts with
  | nil => exact Octets.isText_nil
  | cons part parts ih =>
    obtain ⟨hpart, hparts⟩ := List.forall_mem_cons.mp h
    cases parts with
    | nil =>
      rw [unsplit_singleton]
      exact hpart
    | cons next parts =>
      have hseparator : Octets.IsText [separator] :=
        utf8EncodeChar_separator ▸ Octets.isText_utf8EncodeChar '/'
      rw [unsplit_cons_cons]
      exact hpart.append (hseparator.append (ih hparts))

theorem text_of_ofPart? {c : Component} (h : Component.ofPart? part = some c) : c.text = part := by
  rw [Component.ofPart?] at h
  split_ifs at h with _ hup
  · rw [← Option.some.inj h, hup]
    rfl
  · rw [← Option.some.inj h]
    rfl

/-- The parts that add no component are texts. -/
theorem isText_of_isSilent (h : isSilent part = true) : Octets.IsText part := by
  simp only [isSilent, Bool.or_eq_true, beq_iff_eq] at h
  rcases h with rfl | rfl
  · exact Octets.isText_nil
  · exact ⟨".", by decide +kernel⟩

/-- Octets are a text if everything that is said between their separators is one. -/
theorem isText_iff_forall_text : octets.IsText ↔
    ∀ c ∈ (split octets).filterMap Component.ofPart?, Octets.IsText c.text := by
  constructor
  · intro h c hc
    obtain ⟨part, hpart, hc⟩ := List.mem_filterMap.mp hc
    rw [text_of_ofPart? hc]
    exact isText_of_mem_split h part hpart
  · intro h
    rw [← unsplit_split octets]
    refine isText_unsplit fun part hpart => ?_
    cases hsilent : isSilent part with
    | true => exact isText_of_isSilent hsilent
    | false =>
      obtain ⟨c, hc⟩ := ofPart?_isSome hsilent
      rw [← text_of_ofPart? hc]
      exact h c (List.mem_filterMap.mpr ⟨part, hpart, hc⟩)

/-- A path is a text if all its components are. -/
theorem isText_octets_iff : p.octets.IsText ↔ ∀ c ∈ p.components, Octets.IsText c.text := by
  have hlead : ∀ c ∈ p.lead, Octets.IsText c.text := by
    intro c hc
    rw [lead] at hc
    split_ifs at hc
    · rw [List.mem_singleton.mp hc]
      exact Octets.isText_nil
    · rw [List.mem_singleton.mp hc]
      exact isText_of_isSilent rfl
    · cases hc
  rw [isText_iff_forall_text, components, List.forall_mem_append]
  exact (and_iff_right hlead).symm

/-! ## Reading -/

/-- A path is read as an absolute one only if it is one. -/
theorem isAbsolute_ofString_display (p : Path) :
    (ofString p.display).isAbsolute = p.isAbsolute := by
  have hstart {octets : Octets} :
      octets.toStringLossy.toList.head? = some '/' ↔ octets.head? = some separator :=
    Octets.head?_toStringLossy_iff (by decide) (by decide)
  rw [Bool.eq_iff_iff, isAbsolute, isAbsolute, beq_iff_eq, beq_iff_eq, ← hstart, ← hstart, ofString,
    display, Octets.toStringLossy_ofString]

/-- What is read says the same between its separators only if that is text. -/
theorem filterMap_split_ofString_display :
    (split (ofString p.display).octets).filterMap Component.ofPart? =
        (split p.octets).filterMap Component.ofPart? ↔ p.octets.IsText := by
  constructor
  · intro heq
    rw [isText_iff_forall_text, ← heq]
    exact isText_iff_forall_text.mp ⟨p.display, rfl⟩
  · intro h
    rw [ofString, display, Octets.isText_iff_ofString_toStringLossy.mp h]

end DiagnosticRelay.Path
