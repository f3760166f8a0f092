import DiagnosticRelay.Path.Basic
import Mathlib.Data.List.Basic

/-!
# The normal form of paths

Components are all that a path means, and its normal form is the text they are
written back to. Writing back loses nothing because the components of a path are
not any list: only the first can come from no name, and names are whole parts,
without separators and never silent.

## Main definitions

* `Path.Component.IsInner`: a component that can stand behind the start.
* `Path.IsWritten`: a list that is the components of some path.

## Main results

* `components_ofComponents`: components that are written are read back.
* `components_normalize`: the normal form has the same components.
-/

namespace DiagnosticRelay.Path

variable {p q r : Path}

/-! ## Sameness -/

@[refl] theorem Same.refl (p : Path) : Same p p := rfl

@[symm] theorem Same.symm (h : Same p q) : Same q p := Eq.symm h

@[trans] theorem Same.trans (h : Same p q) (h' : Same q r) : Same p r := Eq.trans h h'

/-- Paths that are the same are the same as the same paths. -/
theorem Same.congr_right (h : Same p q) : Same r p ↔ Same r q :=
  ⟨fun h' => h'.trans h, fun h' => h'.trans h.symm⟩

/-! ## Parts -/

theorem split_ne_nil (octets : Octets) : split octets ≠ [] := by
  cases octets with
  | nil => simp [split]
  | cons b rest =>
    rw [split]
    split_ifs
    · simp
    · split <;> simp

theorem split_eq_splitOn (octets : Octets) : split octets = octets.splitOn separator := by
  induction octets with
  | nil => rfl
  | cons b rest ih =>
    rw [List.splitOn_cons_eq_if_modifyHead, ← ih, split]
    by_cases hb : b = separator
    · simp [hb]
    · obtain ⟨part, parts, hrest⟩ := List.exists_cons_of_ne_nil (split_ne_nil rest)
      simp [hb, hrest]

/-- No part holds a separator. -/
theorem separator_notMem_of_mem_split {octets part : Octets} (h : part ∈ split octets) :
    separator ∉ part := by
  induction octets generalizing part with
  | nil =>
    obtain rfl : part = [] := by simpa [split] using h
    simp
  | cons b rest ih =>
    rw [split] at h
    split_ifs at h with hb
    · rcases List.mem_cons.mp h with rfl | h
      · simp
      · exact ih h
    · cases hrest : split rest with
      | nil => exact absurd hrest (split_ne_nil rest)
      | cons first parts =>
        rw [hrest] at h ih
        rcases List.mem_cons.mp h with rfl | h
        · have hfirst := ih List.mem_cons_self
          simp [hfirst, Ne.symm hb]
        · exact ih (List.mem_cons_of_mem _ h)

/-- Parts that are written with separators between them are read back. -/
theorem split_unsplit {parts : List Octets} (hne : parts ≠ [])
    (h : ∀ part ∈ parts, separator ∉ part) : split (unsplit parts) = parts := by
  rw [split_eq_splitOn, unsplit]
  exact List.splitOn_intercalate _ h hne

theorem split_separator_cons (octets : Octets) :
    split (separator :: octets) = [] :: split octets := by
  simp [split]

/-! ## Components behind the start -/

namespace Component

/-- A component that can stand behind the start of a path: `..`, or a name that is
a whole part and not silent. -/
def IsInner : Component → Prop
  | .root | .here => False
  | .parent => True
  | .name octets => separator ∉ octets ∧ octets ≠ [] ∧ octets ≠ [dot] ∧ octets ≠ [dot, dot]

theorem IsInner.separator_notMem {c : Component} (h : c.IsInner) : separator ∉ c.text := by
  cases c with
  | root => exact h.elim
  | here => exact h.elim
  | parent => simp [text, separator, dot]
  | name octets => exact h.1

/-- The text of an inner component is a part that is read as it. -/
theorem IsInner.ofPart?_text {c : Component} (h : c.IsInner) : ofPart? c.text = some c := by
  cases c with
  | root => exact h.elim
  | here => exact h.elim
  | parent => simp [ofPart?, text, isSilent]
  | name octets =>
    obtain ⟨-, hempty, hdot, hdots⟩ := h
    simp [ofPart?, text, isSilent, hempty, hdot, hdots]

theorem IsInner.text_ne_nil {c : Component} (h : c.IsInner) : c.text ≠ [] := by
  cases c with
  | root => exact h.elim
  | here => exact h.elim
  | parent => simp [text]
  | name octets => exact h.2.1

theorem IsInner.text_ne_dot {c : Component} (h : c.IsInner) : c.text ≠ [dot] := by
  cases c with
  | root => exact h.elim
  | here => exact h.elim
  | parent => simp [text]
  | name octets => exact h.2.2.1

/-- What is read from a part is inner. -/
theorem isInner_of_ofPart? {part : Octets} {c : Component} (hpart : separator ∉ part)
    (h : ofPart? part = some c) : c.IsInner := by
  rw [ofPart?] at h
  split_ifs at h with hsilent hdots
  · obtain rfl := Option.some.inj h
    exact trivial
  · obtain rfl := Option.some.inj h
    simp only [isSilent, Bool.or_eq_true, beq_iff_eq, not_or] at hsilent
    exact ⟨hpart, hsilent.1, hsilent.2, hdots⟩

end Component

/-- The inner components are read back from their texts. -/
theorem filterMap_ofPart?_text {inner : List Component} (h : ∀ c ∈ inner, c.IsInner) :
    (inner.map Component.text).filterMap Component.ofPart? = inner := by
  induction inner with
  | nil => rfl
  | cons c rest ih =>
    rw [List.map_cons, List.filterMap_cons, (h c List.mem_cons_self).ofPart?_text,
      ih fun d hd => h d (List.mem_cons_of_mem _ hd)]

/-- The components behind the start of a path are inner ones. -/
theorem isInner_of_mem_split {octets : Octets} {c : Component}
    (h : c ∈ (split octets).filterMap Component.ofPart?) : c.IsInner := by
  obtain ⟨part, hpart, hc⟩ := List.mem_filterMap.mp h
  exact Component.isInner_of_ofPart? (separator_notMem_of_mem_split hpart) hc

/-- The inner components of texts that are written with separators between them. -/
theorem filterMap_split_unsplit {inner : List Component} (h : ∀ c ∈ inner, c.IsInner) :
    (split (unsplit (inner.map Component.text))).filterMap Component.ofPart? = inner := by
  cases inner with
  | nil => rfl
  | cons c rest =>
    rw [split_unsplit (by simp), filterMap_ofPart?_text h]
    intro part hpart
    obtain ⟨d, hd, rfl⟩ := List.mem_map.mp hpart
    exact (h d hd).separator_notMem

/-! ## Components of paths -/

/-- Components that a path can have: inner ones, possibly behind a start. -/
def IsWritten : List Component → Prop
  | .root :: rest | .here :: rest => ∀ c ∈ rest, c.IsInner
  | components => ∀ c ∈ components, c.IsInner

theorem isWritten_of_forall_isInner {components : List Component}
    (h : ∀ c ∈ components, c.IsInner) : IsWritten components := by
  unfold IsWritten
  split
  · exact (h _ List.mem_cons_self).elim
  · exact (h _ List.mem_cons_self).elim
  · exact h

theorem isWritten_components (p : Path) : IsWritten p.components := by
  have inner : ∀ c ∈ (split p.octets).filterMap Component.ofPart?, c.IsInner :=
    fun c hc => isInner_of_mem_split hc
  rw [components, lead]
  split_ifs with habsolute hhere
  · exact inner
  · exact inner
  · exact isWritten_of_forall_isInner inner

theorem components_eq_root_cons (h : p.isAbsolute = true) :
    p.components = .root :: (split p.octets).filterMap Component.ofPart? := by
  rw [components, lead, if_pos h, List.singleton_append]

theorem components_of_isAbsolute (h : p.isAbsolute = true) :
    ∃ rest, p.components = .root :: rest ∧ ∀ c ∈ rest, c.IsInner :=
  ⟨_, components_eq_root_cons h, fun _ => isInner_of_mem_split⟩

theorem isAbsolute_of_components {rest : List Component} (h : p.components = .root :: rest) :
    p.isAbsolute = true := by
  by_contra habsolute
  have hinner : ∀ c ∈ (split p.octets).filterMap Component.ofPart?, c.IsInner :=
    fun c => isInner_of_mem_split
  -- Behind the start there is no second one.
  rw [components, lead, if_neg habsolute] at h
  split_ifs at h
  · cases h
  · rw [List.nil_append] at h
    exact hinner .root (h ▸ List.mem_cons_self)

/-- Spellings of an absolute path are absolute. -/
theorem Same.isAbsolute (h : Same p q) (hq : q.isAbsolute = true) : p.isAbsolute = true := by
  obtain ⟨rest, hrest, -⟩ := components_of_isAbsolute hq
  exact isAbsolute_of_components (Eq.trans h hrest)

theorem components_root_cons {rest : List Component} (h : ∀ c ∈ rest, c.IsInner) :
    (ofComponents (.root :: rest)).components = .root :: rest := by
  have habsolute : (ofComponents (.root :: rest)).isAbsolute = true := by
    simp [ofComponents, isAbsolute]
  rw [components, lead, if_pos habsolute, ofComponents, split_separator_cons,
    List.filterMap_cons, filterMap_split_unsplit h]
  rfl

theorem components_here_cons {rest : List Component} (h : ∀ c ∈ rest, c.IsInner) :
    (ofComponents (.here :: rest)).components = .here :: rest := by
  have hsplit : split (unsplit ([dot] :: rest.map Component.text)) =
      [dot] :: rest.map Component.text := by
    refine split_unsplit (by simp) fun part hpart => ?_
    rcases List.mem_cons.mp hpart with rfl | hpart
    · simp [separator, dot]
    · obtain ⟨c, hc, rfl⟩ := List.mem_map.mp hpart
      exact (h c hc).separator_notMem
  have habsolute : (ofComponents (.here :: rest)).isAbsolute = false := by
    cases rest <;> simp [ofComponents, isAbsolute, unsplit, Component.text, separator, dot,
      List.intercalate_cons_cons]
  have hhere : (ofComponents (.here :: rest)).startsHere = true := by
    simp [ofComponents, startsHere, Component.text, hsplit]
  rw [components, lead, habsolute, hhere]
  simp only [ofComponents, List.map_cons, Component.text, hsplit, List.filterMap_cons,
    filterMap_ofPart?_text h]
  rfl

theorem isSilent_eq_false_iff {part : Octets} :
    isSilent part = false ↔ part ≠ [] ∧ part ≠ [dot] := by
  simp [isSilent]

/-- Parts that do not start with a silent one are read as what stands behind a start. -/
theorem components_unsplit {parts : List Octets} (hparts : ∀ part ∈ parts, separator ∉ part)
    (hfirst : ∀ part ∈ parts.head?, isSilent part = false) :
    (Path.mk (unsplit parts)).components = parts.filterMap Component.ofPart? := by
  cases parts with
  | nil => rfl
  | cons part parts =>
    obtain ⟨hempty, hdot⟩ := isSilent_eq_false_iff.mp (hfirst part rfl)
    have hsplit := split_unsplit (List.cons_ne_nil part parts) hparts
    have habsolute : (Path.mk (unsplit (part :: parts))).isAbsolute = false := by
      obtain ⟨b, text, rfl⟩ := List.exists_cons_of_ne_nil hempty
      have hb : b ≠ separator := by
        rintro rfl
        exact hparts _ List.mem_cons_self List.mem_cons_self
      cases parts <;> simp [isAbsolute, unsplit, hb, List.intercalate_cons_cons]
    have hhere : (Path.mk (unsplit (part :: parts))).startsHere = false := by
      rw [startsHere, hsplit]
      simp [hdot]
    rw [components, lead, habsolute, hhere, hsplit]
    rfl

theorem ofComponents_of_isInner {inner : List Component} (h : ∀ c ∈ inner, c.IsInner) :
    ofComponents inner = ⟨unsplit (inner.map Component.text)⟩ := by
  rw [ofComponents.eq_def]
  split
  · exact (h _ List.mem_cons_self).elim
  · rfl

theorem components_inner {inner : List Component} (h : ∀ c ∈ inner, c.IsInner) :
    (ofComponents inner).components = inner := by
  rw [ofComponents_of_isInner h, components_unsplit, filterMap_ofPart?_text h]
  · intro part hpart
    obtain ⟨c, hc, rfl⟩ := List.mem_map.mp hpart
    exact (h c hc).separator_notMem
  · intro part hpart
    obtain ⟨c, hc, rfl⟩ := List.mem_map.mp (List.mem_of_head? hpart)
    exact isSilent_eq_false_iff.mpr ⟨(h c hc).text_ne_nil, (h c hc).text_ne_dot⟩

/-- Components that are written are read back. -/
theorem components_ofComponents {components : List Component} (h : IsWritten components) :
    (ofComponents components).components = components := by
  unfold IsWritten at h
  split at h
  · exact components_root_cons h
  · exact components_here_cons h
  · exact components_inner h

/-- The normal form of a path has the same components. -/
@[simp] theorem components_normalize (p : Path) : p.normalize.components = p.components :=
  components_ofComponents p.isWritten_components

@[simp] theorem normalize_normalize (p : Path) : p.normalize.normalize = p.normalize := by
  rw [normalize, components_normalize, normalize]

theorem normalize_same (p : Path) : Same p.normalize p := p.components_normalize

/-- Spellings of one path have one normal form. -/
theorem normalize_congr (h : Same p q) : p.normalize = q.normalize := by
  rw [normalize, normalize, h]

end DiagnosticRelay.Path
