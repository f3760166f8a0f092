import DiagnosticRelay.Proofs.Text.Lossless
import DiagnosticRelay.Proofs.Url.Encoding
import DiagnosticRelay.Url.Reading
import Mathlib.Data.List.TakeWhile

/-!
# URLs that are read back

What is written as a segment is read as that segment, if it is no dot segment: its
characters are not encoded once more, do not separate and are not dropped. So a URL of the
web that has such segments is read as it was written.

## Main definitions

* `Url.IsPathChar`, `Url.IsSegment`: what stands in a path as it is.

## Main results

* `Url.isSegment_encodeChars`: encoded texts are segments, apart from the dots.
* `Url.parse_render`: URLs of the web are read back.
-/

namespace DiagnosticRelay.Url

variable {c : Char} {cs segment : List Char} {segments : List (List Char)} {port : Nat}

/-- A character that stands in a path as it is. -/
def IsPathChar (c : Char) : Prop :=
  0x20 < c.toNat ∧ c.toNat < 0x7F ∧ c ∉ pathSet ∧ c ≠ '/' ∧ c ≠ '\\'

instance : DecidablePred IsPathChar := fun c =>
  inferInstanceAs (Decidable (0x20 < c.toNat ∧ c.toNat < 0x7F ∧ c ∉ pathSet ∧ c ≠ '/' ∧ c ≠ '\\'))

theorem isPathChar_of_all (h : cs.all (decide <| IsPathChar ·) = true) (hc : c ∈ cs) :
    IsPathChar c :=
  of_decide_eq_true (List.all_eq_true.mp h c hc)

/-- A segment that is read as it is written. -/
structure IsSegment (segment : List Char) : Prop where
  chars : ∀ c ∈ segment, IsPathChar c
  not_dot : isDot segment = false
  not_doubleDot : isDoubleDot segment = false

theorem isSegment_nil : IsSegment [] := ⟨by simp, by decide, by decide⟩

/-! ## Characters of paths -/

namespace IsPathChar

theorem isEncoded_eq_false (h : IsPathChar c) : isEncoded pathSet (UInt8.ofNat c.toNat) = false := by
  obtain ⟨hlow, hhigh, hplain, -⟩ := h
  have hvalue : (UInt8.ofNat c.toNat).toNat = c.toNat := Octets.toNat_ofNat_of_le (by omega)
  have hcontrol : ¬UInt8.ofNat c.toNat < 0x20 := by
    rw [UInt8.lt_iff_toNat_lt, hvalue]
    exact Nat.not_lt.mpr hlow.le
  have hdelete : ¬0x7F ≤ UInt8.ofNat c.toNat := by
    rw [UInt8.le_iff_toNat_le, hvalue]
    exact Nat.not_le.mpr hhigh
  rw [isEncoded, hvalue, Char.ofNat_toNat, decide_eq_false hcontrol, decide_eq_false hdelete]
  simpa using hplain

theorem encode_eq (h : IsPathChar c) : encode pathSet (String.utf8EncodeChar c) = [c] := by
  have hascii : c.toNat ≤ 0x7F := h.2.1.le
  have hvalue : (UInt8.ofNat c.toNat).toNat = c.toNat := Octets.toNat_ofNat_of_le hascii
  rw [Octets.utf8EncodeChar_of_le hascii, encode, List.flatMap_singleton, encodeOctet,
    if_neg (by simp [h.isEncoded_eq_false]), hvalue, Char.ofNat_toNat]

theorem isOuter_eq_false (h : IsPathChar c) : isOuter c = false := by
  rw [isOuter, decide_eq_false_iff_not, Nat.not_le]
  exact h.1

theorem isSeparator_eq_false (h : IsPathChar c) (scheme : Scheme) : isSeparator scheme c = false := by
  simp [isSeparator, h.2.2.2.1, h.2.2.2.2]

theorem endsPath_eq_false (h : IsPathChar c) : endsPath c = false := by
  have hquery : c ≠ '?' := fun heq => h.2.2.1 (heq ▸ by decide)
  have hfragment : c ≠ '#' := fun heq => h.2.2.1 (heq ▸ by decide)
  simp [endsPath, hquery, hfragment]

theorem endsAuthority_eq_false (h : IsPathChar c) (scheme : Scheme) :
    endsAuthority scheme c = false := by
  rw [endsAuthority, h.isSeparator_eq_false, h.endsPath_eq_false]
  rfl

end IsPathChar

/-- What is encoded is not encoded once more. -/
theorem encodeChars_pathSet (h : ∀ c ∈ cs, IsPathChar c) : encodeChars pathSet cs = cs := by
  rw [encodeChars, Octets.ofString_eq_flatMap, String.toList_ofList, encode, List.flatMap_assoc]
  induction cs with
  | nil => rfl
  | cons c rest ih =>
    rw [List.flatMap_cons, ih fun d hd => h d (List.mem_cons_of_mem c hd)]
    exact congrArg (· ++ rest) (h c List.mem_cons_self).encode_eq

/-- The encoding of a segment leaves nothing that would be encoded in a path. -/
theorem isPathChar_of_mem_encode {octets : Octets} (h : c ∈ encode segmentSet octets) :
    IsPathChar c := by
  obtain ⟨b, -, hc⟩ := List.mem_flatMap.mp h
  cases hencoded : isEncoded segmentSet b with
  | true =>
    -- The octet is written as `%` and two digits, which stand in a path as they are.
    have hdigit (n : Nat) (hn : n < 16) : IsPathChar (upperHex n) := by
      interval_cases n <;> decide
    have hbound := b.toNat_lt
    rw [encodeOctet, if_pos hencoded] at hc
    simp only [List.mem_cons, List.not_mem_nil, or_false] at hc
    rcases hc with rfl | rfl | rfl
    · decide
    · exact hdigit _ (by omega)
    · exact hdigit _ (by omega)
  | false =>
    obtain ⟨d, hd, -, ⟨hlow, hhigh⟩, hplain⟩ := encodeOctet_of_not_isEncoded hencoded
    obtain rfl := List.mem_singleton.mp (hd ▸ hc)
    -- The set has all that a path encodes, the space among it, and both separators.
    have hspace : c.toNat ≠ 0x20 := fun heq =>
      hplain (by rw [show c = ' ' from Char.toNat_inj.mp heq]; decide)
    refine ⟨by omega, hhigh, ?_, ?_, ?_⟩
    · exact fun hmem => hplain (List.mem_append_left _ hmem)
    · rintro rfl
      exact hplain (by decide)
    · rintro rfl
      exact hplain (by decide)

/-! ## Dot segments -/

/-- What has a lower case is in that case, or it is the capital. -/
theorem eq_or_eq_of_toLower_eq {d : Char} (h : c.toLower = d) :
    c = d ∨ (65 ≤ c.toNat ∧ c.toNat ≤ 90) ∧ c.toNat + 32 = d.toNat := by
  delta Char.toLower at h
  split at h
  next hupper =>
    have hlow : 65 ≤ c.toNat := hupper.1
    have hhigh : c.toNat ≤ 90 := hupper.2
    have hvalue : (c.val + ('a'.val - 'A'.val)).toNat = c.toNat + 32 := by
      have hdistance : ('a'.val - 'A'.val).toNat = 32 := rfl
      have hval : c.val.toNat = c.toNat := rfl
      rw [UInt32.toNat_add, hdistance, hval]
      omega
    exact .inr ⟨⟨hlow, hhigh⟩, hvalue ▸ congrArg Char.toNat h⟩
  next => exact .inl h

/-- What is no small letter is the lower case of nothing else. -/
theorem eq_of_toLower_eq {d : Char} (h : c.toLower = d) (hd : d.toNat < 97) : c = d := by
  rcases eq_or_eq_of_toLower_eq h with h | h
  · exact h
  · omega

/-- A dot is read as a dot, also if it is encoded. -/
theorem decode_dot_append {dot : List Char}
    (h : dot.map Char.toLower = ['.'] ∨ dot.map Char.toLower = ['%', '2', 'e'])
    (rest : List Char) : decode (dot ++ rest) = 0x2E :: decode rest := by
  rcases h with h | h
  · obtain ⟨c, rfl, hc⟩ := List.map_eq_singleton_iff.mp h
    rw [eq_of_toLower_eq hc (by decide), List.singleton_append, decode_cons_of_ne (by decide),
      ofString_singleton (by decide)]
    rfl
  · obtain ⟨c, _, rfl, hc, h⟩ := List.map_eq_cons_iff.mp h
    obtain ⟨d, _, rfl, hd, h⟩ := List.map_eq_cons_iff.mp h
    obtain ⟨e, rfl, he⟩ := List.map_eq_singleton_iff.mp h
    obtain rfl := eq_of_toLower_eq hc (by decide)
    obtain rfl := eq_of_toLower_eq hd (by decide)
    have hdigit : hexOctet? '2' e = some 0x2E := by
      rcases eq_or_eq_of_toLower_eq he with rfl | ⟨-, hvalue⟩
      · decide
      · have hcapital : 'E'.toNat + 32 = 'e'.toNat := rfl
        obtain rfl : e = 'E' := Char.toNat_inj.mp (by omega)
        decide
    rw [List.cons_append, List.cons_append, List.cons_append, List.nil_append, decode, hdigit]

theorem decode_of_isDot (h : isDot segment = true) : decode segment = [0x2E] := by
  simp only [isDot, List.contains_eq_mem, List.mem_cons, List.not_mem_nil, or_false,
    decide_eq_true_eq, ← String.toList_inj, String.toList_ofList] at h
  have hread := decode_dot_append h []
  rwa [List.append_nil] at hread

/-- Two dots are read as two dots, each in one of its forms. -/
theorem decode_dots (first second : List Char) (h : segment.map Char.toLower = first ++ second)
    (hfirst : first = ['.'] ∨ first = ['%', '2', 'e'])
    (hsecond : second = ['.'] ∨ second = ['%', '2', 'e']) : decode segment = [0x2E, 0x2E] := by
  obtain ⟨a, b, rfl, ha, hb⟩ := List.map_eq_append_iff.mp h
  have hread := decode_dot_append (hb ▸ hsecond) []
  rw [List.append_nil] at hread
  rw [decode_dot_append (ha ▸ hfirst), hread]
  rfl

theorem decode_of_isDoubleDot (h : isDoubleDot segment = true) : decode segment = [0x2E, 0x2E] := by
  simp only [isDoubleDot, List.contains_eq_mem, List.mem_cons, List.not_mem_nil, or_false,
    decide_eq_true_eq, ← String.toList_inj, String.toList_ofList] at h
  rcases h with h | h | h | h
  · exact decode_dots ['.'] ['.'] h (.inl rfl) (.inl rfl)
  · exact decode_dots ['%', '2', 'e'] ['.'] h (.inr rfl) (.inl rfl)
  · exact decode_dots ['.'] ['%', '2', 'e'] h (.inl rfl) (.inr rfl)
  · exact decode_dots ['%', '2', 'e'] ['%', '2', 'e'] h (.inr rfl) (.inr rfl)

/-- A text is encoded as a dot segment only if it is one as it stands, since `%` is encoded. -/
theorem isDot_encodeChars_iff {s : String} :
    isDot (encodeChars segmentSet s.toList) = true ↔ s = "." := by
  constructor
  · intro h
    have hread := decode_of_isDot h
    rw [decode_encodeChars (by decide)] at hread
    exact Octets.ofString_injective (hread.trans (by decide +kernel))
  · rintro rfl
    decide +kernel

theorem isDoubleDot_encodeChars_iff {s : String} :
    isDoubleDot (encodeChars segmentSet s.toList) = true ↔ s = ".." := by
  constructor
  · intro h
    have hread := decode_of_isDoubleDot h
    rw [decode_encodeChars (by decide)] at hread
    exact Octets.ofString_injective (hread.trans (by decide +kernel))
  · rintro rfl
    decide +kernel

theorem isSegment_encodeChars {s : String} (hdot : s ≠ ".") (hdots : s ≠ "..") :
    IsSegment (encodeChars segmentSet s.toList) where
  chars _ hc := isPathChar_of_mem_encode hc
  not_dot := Bool.eq_false_iff.mpr (mt isDot_encodeChars_iff.mp hdot)
  not_doubleDot := Bool.eq_false_iff.mpr (mt isDoubleDot_encodeChars_iff.mp hdots)

/-! ## Paths -/

theorem extend_of_isSegment (h : IsSegment segment) (before : List (List Char)) (last : Bool) :
    extend (.web port) before segment last = before ++ [segment] := by
  simp [extend, h.not_dot, h.not_doubleDot, encodeChars_pathSet h.chars]

/-- Nothing is resolved where there are no dot segments. -/
theorem resolve_of_isSegment (h : ∀ s ∈ segments, IsSegment s) (before : List (List Char)) :
    resolve (.web port) before segments = before ++ segments := by
  induction segments generalizing before with
  | nil => rw [resolve, List.append_nil]
  | cons s rest ih =>
    have hs : IsSegment s := h s List.mem_cons_self
    cases rest with
    | nil => rw [resolve, extend_of_isSegment hs]
    | cons t rest =>
      rw [resolve, extend_of_isSegment hs, ih fun u hu => h u (List.mem_cons_of_mem s hu),
        List.append_assoc, List.singleton_append]
      · simp

/-- A segment in front of a path goes before what the path starts with. -/
theorem rawSegments_append {scheme : Scheme} (h : ∀ c ∈ segment, isSeparator scheme c = false)
    {path first : List Char} {rest : List (List Char)}
    (hpath : rawSegments scheme path = first :: rest) :
    rawSegments scheme (segment ++ path) = (segment ++ first) :: rest := by
  induction segment with
  | nil => exact hpath
  | cons c segment ih =>
    have hc : isSeparator scheme c = false := h c List.mem_cons_self
    rw [List.cons_append, rawSegments, if_neg (by simp [hc]),
      ih fun d hd => h d (List.mem_cons_of_mem c hd)]
    rfl

/-- The segments of a path are what it is made of. -/
theorem rawSegments_render (h : ∀ s ∈ segment :: segments, IsSegment s) (scheme : Scheme) :
    rawSegments scheme (segment ++ (Route.segments segments).render) = segment :: segments := by
  have hfirst : ∀ c ∈ segment, isSeparator scheme c = false := fun c hc =>
    ((h segment List.mem_cons_self).chars c hc).isSeparator_eq_false scheme
  -- What follows a segment starts with a slash, so the segment goes before an empty one.
  induction segments generalizing segment with
  | nil =>
    have hempty : rawSegments scheme (Route.segments []).render = [[]] := rfl
    rw [rawSegments_append hfirst hempty, List.append_nil]
  | cons t rest ih =>
    have hrest : ∀ s ∈ t :: rest, IsSegment s := fun s hs => h s (List.mem_cons_of_mem segment hs)
    have hpath : rawSegments scheme (Route.segments (t :: rest)).render = [] :: t :: rest := by
      have hrender : (Route.segments (t :: rest)).render =
          '/' :: (t ++ (Route.segments rest).render) := rfl
      rw [hrender, rawSegments, if_pos (by simp [isSeparator]), ih hrest fun c hc =>
        ((hrest t List.mem_cons_self).chars c hc).isSeparator_eq_false scheme]
    rw [rawSegments_append hfirst hpath, List.append_nil]

theorem routeAfterAuthority_render (h : ∀ s ∈ segments, IsSegment s) (hne : segments ≠ []) :
    routeAfterAuthority (.web port) (Route.segments segments).render = .segments segments := by
  obtain ⟨s, rest, rfl⟩ := List.exists_cons_of_ne_nil hne
  have hrender : (Route.segments (s :: rest)).render =
      '/' :: (s ++ (Route.segments rest).render) := rfl
  have hsegments : segmentsOf (.web port) (s ++ (Route.segments rest).render) = s :: rest := by
    rw [segmentsOf, rawSegments_render h, resolve_of_isSegment h]
    simp
  rw [hrender, routeAfterAuthority, if_pos (by simp [isSeparator]), hsegments]

theorem mem_render_segments (h : ∀ s ∈ segments, IsSegment s)
    (hc : c ∈ (Route.segments segments).render) : c = '/' ∨ IsPathChar c := by
  obtain ⟨s, hs, hmem⟩ := List.mem_flatMap.mp hc
  rcases List.mem_cons.mp hmem with heq | hmem
  · exact .inl heq
  · exact .inr ((h s hs).chars c hmem)

/-! ## URLs of the web -/

/-- A text without controls and spaces counts as a whole. -/
theorem clean_eq_self {text : List Char} (h : ∀ c ∈ text, isOuter c = false) :
    clean text = text := by
  have hends {cs : List Char} (hcs : ∀ c ∈ cs, isOuter c = false) : cs.dropWhile isOuter = cs := by
    cases cs with
    | nil => rfl
    | cons c rest => rw [List.dropWhile_cons_of_neg (by simp [hcs c List.mem_cons_self])]
  -- What is dropped everywhere is a control, so it is dropped at the ends as well.
  have hkept : ∀ c ∈ text, (!isDropped c) = true := by
    intro c hc
    have houter := h c hc
    by_contra hdropped
    simp only [isDropped, Bool.not_eq_true', Bool.not_eq_false, Bool.or_eq_true, beq_iff_eq]
      at hdropped
    rcases hdropped with (rfl | rfl) | rfl <;> exact absurd houter (by decide)
  rw [clean, hends h, hends fun c hc => h c (List.mem_reverse.mp hc), List.reverse_reverse,
    List.filter_eq_self.mpr hkept]

/-- A URL of the web without a query and without a fragment. -/
def ofWeb (authority : Authority) (segments : List (List Char)) : Url where
  scheme := "https".toList
  authority := some authority
  path := .segments segments

/-- An authority ends where the path starts. -/
theorem span_endsAuthority (scheme : Scheme) {host : List Char} (h : ∀ c ∈ host, IsPathChar c)
    (path : List Char) :
    (host ++ '/' :: path).takeWhile (!endsAuthority scheme ·) = host ∧
      (host ++ '/' :: path).dropWhile (!endsAuthority scheme ·) = '/' :: path := by
  have hhost : ∀ c ∈ host, (!endsAuthority scheme c) = true := fun c hc => by
    rw [(h c hc).endsAuthority_eq_false]
    rfl
  have hslash : (!endsAuthority scheme '/') = false := by simp [endsAuthority, isSeparator]
  constructor
  · rw [List.takeWhile_append_of_pos hhost, List.takeWhile_cons, hslash]
    exact List.append_nil host
  · rw [List.dropWhile_append_of_pos hhost, List.dropWhile_cons, hslash]
    rfl

/-- A path without a query or a fragment behind it ends with the text. -/
theorem splitTail_eq_self {path : List Char} (h : ∀ c ∈ path, endsPath c = false) :
    splitTail path = (path, []) := by
  have hpath : ∀ c ∈ path, (!endsPath c) = true := fun c hc => by
    rw [h c hc]
    rfl
  rw [splitTail, List.takeWhile_eq_self_iff.mpr hpath, List.dropWhile_eq_nil_iff.mpr hpath]

section Web

variable {authority : Authority} {host : List Char}

/-- What follows the slashes is an authority and a path. -/
theorem afterSlashes_append (hauthority : authorityOf (.web 443) host = .ok authority)
    (hhost : ∀ c ∈ host, IsPathChar c) (h : ∀ s ∈ segments, IsSegment s) (hne : segments ≠ []) :
    afterSlashes "https".toList (host ++ (Route.segments segments).render) =
      .ok (ofWeb authority segments) := by
  have hscheme : Scheme.ofName "https".toList = .web 443 := rfl
  have hends : ∀ c ∈ (Route.segments segments).render, endsPath c = false := by
    intro c hc
    rcases mem_render_segments h hc with rfl | hc
    · decide
    · exact hc.endsPath_eq_false
  have hspan : (host ++ (Route.segments segments).render).takeWhile
        (!endsAuthority (.web 443) ·) = host ∧
      (host ++ (Route.segments segments).render).dropWhile
        (!endsAuthority (.web 443) ·) = (Route.segments segments).render := by
    obtain ⟨s, rest, rfl⟩ := List.exists_cons_of_ne_nil hne
    exact span_endsAuthority (.web 443) hhost (s ++ (Route.segments rest).render)
  rw [afterSlashes, hscheme, hspan.1, hspan.2, hauthority, splitTail_eq_self hends]
  simp only [routeAfterAuthority_render h hne]
  rfl

/-- A URL of the web is read as it was written, if its authority is. -/
theorem parse_render (hauthority : authorityOf (.web 443) host = .ok authority)
    (hrender : authority.render = '/' :: '/' :: host) (hhost : ∀ c ∈ host, IsPathChar c)
    (hnonempty : host ≠ []) (h : ∀ s ∈ segments, IsSegment s) (hne : segments ≠ []) :
    parse (ofWeb authority segments).render = .ok (ofWeb authority segments) := by
  let text := host ++ (Route.segments segments).render
  have htext : (ofWeb authority segments).render.toList = "https://".toList ++ text := by
    rw [render, String.toList_ofList, renderChars]
    simp [ofWeb, hrender, text]
  have houter : ∀ c ∈ "https://".toList ++ text, isOuter c = false := by
    intro c hc
    rcases List.mem_append.mp hc with hc | hc
    · have hprefix : "https://".toList.all (!isOuter ·) = true := by decide
      simpa using List.all_eq_true.mp hprefix c hc
    · rcases List.mem_append.mp hc with hc | hc
      · exact (hhost c hc).isOuter_eq_false
      · rcases mem_render_segments h hc with rfl | hc
        · decide
        · exact hc.isOuter_eq_false
  have hscheme : splitScheme? ("https://".toList ++ text) =
      some ("https".toList, '/' :: '/' :: text) := rfl
  have hslashes : ('/' :: '/' :: text).dropWhile (fun c => c == '/' || c == '\\') = text := by
    obtain ⟨c, rest, rfl⟩ := List.exists_cons_of_ne_nil hnonempty
    obtain ⟨-, -, -, hslash, hbackslash⟩ := hhost c List.mem_cons_self
    simp [text, hslash, hbackslash]
  have hname : Scheme.ofName "https".toList = .web 443 := rfl
  rw [parse, htext, clean_eq_self houter, hscheme]
  simp only [hname, hslashes]
  exact afterSlashes_append hauthority hhost h hne

end Web

end DiagnosticRelay.Url
