import DiagnosticRelay.Proofs.Path.NormalForm
import DiagnosticRelay.Proofs.Path.Order
import Mathlib.Order.Defs.Unbundled

/-!
# The text of normal forms

A normal form has nothing in it that adds no component: its parts are put together with one
separator between any two, and none of them is empty. The same text comes out when the
components are put one below the other, where an absolute one would replace everything
before it: the only absolute component is the start, and nothing comes before that.

## Main definitions

* `Path.IsNormalText`: a text without anything silent.
* `Path.push`, `Path.stack`: components put one below the other.
* `Path.Precedes`: the order of paths.

## Main results

* `isNormalText_normalize`: normal forms have nothing silent.
* `stack_components`: putting components one below the other gives the normal form.
* `same_iff_normalize_eq`: paths are the same when their normal forms are.
* `isStrictTotalOrder_precedes`: normal forms are ordered strictly and totally.
-/

namespace DiagnosticRelay.Path

variable {p q : Path} {octets part : Octets} {parts : List Octets} {inner : List Component}

/-! ## Parts put together -/

/-- A part that can stand anywhere: it is not empty and holds no separator. -/
def IsFull (part : Octets) : Prop := part ≠ [] ∧ separator ∉ part

theorem Component.IsInner.isFull {c : Component} (h : c.IsInner) : IsFull c.text :=
  ⟨h.text_ne_nil, h.separator_notMem⟩

theorem forall_isFull_of_isInner (h : ∀ c ∈ inner, c.IsInner) :
    ∀ part ∈ inner.map Component.text, IsFull part := by
  intro part hpart
  obtain ⟨c, hc, rfl⟩ := List.mem_map.mp hpart
  exact (h c hc).isFull

theorem isFull_dot : IsFull [dot] := ⟨List.cons_ne_nil _ _, by decide⟩

theorem unsplit_cons_cons (part next : Octets) (parts : List Octets) :
    unsplit (part :: next :: parts) = part ++ separator :: unsplit (next :: parts) := by
  rw [unsplit, List.intercalate_cons_cons, List.append_assoc]
  rfl

@[simp] theorem unsplit_singleton (part : Octets) : unsplit [part] = part := by
  simp [unsplit]

/-- One more part stands behind one more separator. -/
theorem unsplit_concat (hne : parts ≠ []) (part : Octets) :
    unsplit (parts ++ [part]) = unsplit parts ++ separator :: part := by
  induction parts with
  | nil => exact absurd rfl hne
  | cons first rest ih =>
    cases rest with
    | nil => rw [List.singleton_append, unsplit_cons_cons, unsplit_singleton, unsplit_singleton]
    | cons next rest =>
      rw [List.cons_append, List.cons_append, unsplit_cons_cons, ← List.cons_append,
        ih (List.cons_ne_nil _ _), unsplit_cons_cons, List.append_assoc, List.cons_append]

theorem head?_unsplit (hne : parts ≠ []) (h : ∀ part ∈ parts, IsFull part) :
    ∃ b, (unsplit parts).head? = some b ∧ b ≠ separator := by
  obtain ⟨first, rest, rfl⟩ := List.exists_cons_of_ne_nil hne
  obtain ⟨hfirst, hseparator⟩ := h first List.mem_cons_self
  obtain ⟨b, text, rfl⟩ := List.exists_cons_of_ne_nil hfirst
  refine ⟨b, ?_, ?_⟩
  · cases rest with
    | nil => rw [unsplit_singleton, List.head?_cons]
    | cons next rest => rw [unsplit_cons_cons, List.cons_append, List.head?_cons]
  · rintro rfl
    exact hseparator List.mem_cons_self

/-- Parts end with their last one, and that is no separator. -/
theorem getLast?_unsplit (hne : parts ≠ []) (h : ∀ part ∈ parts, IsFull part) :
    ∃ b, (unsplit parts).getLast? = some b ∧ b ≠ separator := by
  induction parts with
  | nil => exact absurd rfl hne
  | cons first rest ih =>
    cases rest with
    | nil =>
      obtain ⟨hfirst, hseparator⟩ := h first List.mem_cons_self
      rw [unsplit_singleton]
      refine ⟨first.getLast hfirst, List.getLast?_eq_some_getLast hfirst, fun heq => ?_⟩
      exact hseparator (heq ▸ List.getLast_mem hfirst)
    | cons next rest =>
      obtain ⟨b, hb, hne⟩ := ih (List.cons_ne_nil _ _) fun part hpart =>
        h part (List.mem_cons_of_mem _ hpart)
      refine ⟨b, ?_, hne⟩
      rw [unsplit_cons_cons, List.getLast?_append, List.getLast?_cons, hb]
      rfl

/-! ## Repeated separators -/

/-- No separator follows another one. -/
def IsTight (octets : Octets) : Prop := ¬ [separator, separator] <:+: octets

theorem isTight_nil : IsTight [] := by
  rw [IsTight, List.infix_nil]
  exact List.cons_ne_nil _ _

theorem isTight_append (hpart : separator ∉ part) (h : IsTight octets) :
    IsTight (part ++ octets) := by
  induction part with
  | nil => exact h
  | cons b part ih =>
    obtain ⟨hb, hpart⟩ := not_or.mp (mt List.mem_cons.mpr hpart)
    rw [IsTight, List.cons_append, List.infix_cons_iff, not_or]
    refine ⟨fun hprefix => hb ?_, ih hpart⟩
    exact (List.cons_prefix_cons.mp hprefix).1

theorem isTight_separator_cons (hfirst : octets.head? ≠ some separator) (h : IsTight octets) :
    IsTight (separator :: octets) := by
  rw [IsTight, List.infix_cons_iff, not_or]
  refine ⟨fun hprefix => hfirst ?_, h⟩
  obtain ⟨rest, rfl⟩ := (List.cons_prefix_cons.mp hprefix).2
  rfl

theorem isTight_unsplit (h : ∀ part ∈ parts, IsFull part) : IsTight (unsplit parts) := by
  induction parts with
  | nil => exact isTight_nil
  | cons first rest ih =>
    have hrest : ∀ part ∈ rest, IsFull part := fun part hpart =>
      h part (List.mem_cons_of_mem _ hpart)
    have hfirst := (h first List.mem_cons_self).2
    cases rest with
    | nil =>
      rw [unsplit_singleton, ← List.append_nil first]
      exact isTight_append hfirst isTight_nil
    | cons next rest =>
      obtain ⟨b, hb, hne⟩ := head?_unsplit (List.cons_ne_nil next rest) hrest
      rw [unsplit_cons_cons]
      refine isTight_append hfirst (isTight_separator_cons ?_ (ih hrest))
      rw [hb]
      exact fun heq => hne (Option.some.inj heq)

/-! ## Normal forms -/

/-- The text of a path has nothing that adds no component. -/
structure IsNormalText (octets : Octets) : Prop where
  isTight : IsTight octets
  /-- The only `.` is one that starts a relative path. -/
  dot_notMem : [dot] ∉ (split octets).tail
  /-- A separator at the end is all there is. -/
  eq_of_getLast? : octets.getLast? = some separator → octets = [separator]

theorem dot_notMem_of_isInner (h : ∀ c ∈ inner, c.IsInner) :
    [dot] ∉ inner.map Component.text := by
  intro hmem
  obtain ⟨c, hc, heq⟩ := List.mem_map.mp hmem
  exact (h c hc).text_ne_dot heq

theorem separator_notMem_of_isFull (h : ∀ part ∈ parts, IsFull part) :
    ∀ part ∈ parts, separator ∉ part := fun part hpart => (h part hpart).2

/-- Full parts with no `.` but the first are a normal text. -/
theorem isNormalText_unsplit (h : ∀ part ∈ parts, IsFull part) (hdot : [dot] ∉ parts.tail) :
    IsNormalText (unsplit parts) := by
  by_cases hne : parts = []
  · rw [hne]
    exact ⟨isTight_nil, by decide, nofun⟩
  · refine ⟨isTight_unsplit h, ?_, fun hend => ?_⟩
    · rwa [split_unsplit hne (separator_notMem_of_isFull h)]
    · obtain ⟨b, hb, hseparator⟩ := getLast?_unsplit hne h
      rw [hb] at hend
      exact absurd (Option.some.inj hend) hseparator

/-- Full parts without a `.` are a normal text behind a separator. -/
theorem isNormalText_separator_cons (h : ∀ part ∈ parts, IsFull part) (hdot : [dot] ∉ parts) :
    IsNormalText (separator :: unsplit parts) := by
  by_cases hne : parts = []
  · rw [hne]
    exact ⟨isTight_separator_cons (by decide) isTight_nil, by decide, fun _ => rfl⟩
  · obtain ⟨b, hb, hfirst⟩ := head?_unsplit hne h
    refine ⟨isTight_separator_cons ?_ (isTight_unsplit h), ?_, fun hend => ?_⟩
    · rw [hb]
      exact fun heq => hfirst (Option.some.inj heq)
    · rwa [split_separator_cons, split_unsplit hne (separator_notMem_of_isFull h)]
    · obtain ⟨b, hb, hseparator⟩ := getLast?_unsplit hne h
      rw [List.getLast?_cons, hb] at hend
      exact absurd (Option.some.inj hend) hseparator

/-- What components that are written are written as is a normal text. -/
theorem isNormalText_ofComponents {components : List Component} (h : IsWritten components) :
    IsNormalText (ofComponents components).octets := by
  unfold IsWritten at h
  split at h
  · exact isNormalText_separator_cons (forall_isFull_of_isInner h) (dot_notMem_of_isInner h)
  · refine isNormalText_unsplit ?_ (dot_notMem_of_isInner h)
    exact List.forall_mem_cons.mpr ⟨isFull_dot, forall_isFull_of_isInner h⟩
  · rw [ofComponents_of_isInner h]
    exact isNormalText_unsplit (forall_isFull_of_isInner h)
      fun hmem => dot_notMem_of_isInner h (List.mem_of_mem_tail hmem)

/-- A normal form has a normal text. -/
theorem isNormalText_normalize (p : Path) : IsNormalText p.normalize.octets :=
  isNormalText_ofComponents p.isWritten_components

/-- Paths are the same when their normal forms are. -/
theorem same_iff_normalize_eq : Same p q ↔ p.normalize = q.normalize := by
  refine ⟨normalize_congr, fun h => ?_⟩
  rw [Same, ← components_normalize p, h, components_normalize]

/-! ## Components put one below the other -/

/-- The path that is a component alone. -/
def Component.path : Component → Path
  | .root => ⟨[separator]⟩
  | c => ⟨c.text⟩

/-- A component put below a path. -/
def push (base : Path) (c : Component) : Path := base.join c.path

/-- Components put one below the other. -/
def stack (components : List Component) : Path := components.foldl push ⟨[]⟩

theorem push_of_isInner {c : Component} (h : c.IsInner) (base : Path) :
    push base c = base.join ⟨c.text⟩ := by
  cases c with
  | root => exact h.elim
  | here => rfl
  | parent => rfl
  | name octets => rfl

theorem isAbsolute_of_isFull (h : IsFull part) : (Path.mk part).isAbsolute = false := by
  obtain ⟨b, text, rfl⟩ := List.exists_cons_of_ne_nil h.1
  have hb : b ≠ separator := by
    rintro rfl
    exact h.2 List.mem_cons_self
  simp [isAbsolute, hb]

/-- A part is put below others behind one separator. -/
theorem join_unsplit (start : Octets) (hne : parts ≠ []) (h : ∀ part ∈ parts, IsFull part)
    (hpart : IsFull part) :
    (Path.mk (start ++ unsplit parts)).join ⟨part⟩ = ⟨start ++ unsplit (parts ++ [part])⟩ := by
  obtain ⟨b, hb, hseparator⟩ := getLast?_unsplit hne h
  have hlast : (start ++ unsplit parts).getLast? = some b := by
    rw [List.getLast?_append, hb]
    rfl
  have hends : ¬ (start ++ unsplit parts = [] ∨
      (start ++ unsplit parts).getLast? = some separator) := by
    rintro (hempty | hend)
    · rw [hempty] at hlast
      cases hlast
    · exact hseparator (Option.some.inj (hlast.symm.trans hend))
  rw [join, if_neg (by simp [isAbsolute_of_isFull hpart]), if_neg hends, unsplit_concat hne,
    List.append_assoc]

/-- Inner components are put below others behind one separator each. -/
theorem foldl_push_unsplit (start : Octets) (hne : parts ≠ []) (h : ∀ part ∈ parts, IsFull part)
    (hinner : ∀ c ∈ inner, c.IsInner) :
    inner.foldl push ⟨start ++ unsplit parts⟩ =
      ⟨start ++ unsplit (parts ++ inner.map Component.text)⟩ := by
  induction inner generalizing parts with
  | nil => rw [List.foldl_nil, List.map_nil, List.append_nil]
  | cons c rest ih =>
    have hc := hinner c List.mem_cons_self
    have hparts : ∀ part ∈ parts ++ [c.text], IsFull part :=
      List.forall_mem_append.mpr ⟨h, List.forall_mem_singleton.mpr hc.isFull⟩
    rw [List.foldl_cons, push_of_isInner hc, join_unsplit start hne h hc.isFull,
      ih (by simp) hparts fun d hd => hinner d (List.mem_cons_of_mem _ hd), List.map_cons,
      List.append_assoc, List.singleton_append]

/-- Inner components are put below a start that ends where the first of them can stand. -/
theorem foldl_push_start {start : Octets} (hstart : start = [] ∨ start = [separator])
    (hinner : ∀ c ∈ inner, c.IsInner) :
    inner.foldl push ⟨start⟩ = ⟨start ++ unsplit (inner.map Component.text)⟩ := by
  cases inner with
  | nil => simp [unsplit]
  | cons c rest =>
    have hc := hinner c List.mem_cons_self
    have hends : start = [] ∨ start.getLast? = some separator := by
      rcases hstart with rfl | rfl
      · exact .inl rfl
      · exact .inr rfl
    have hfirst : push ⟨start⟩ c = ⟨start ++ unsplit [c.text]⟩ := by
      rw [push_of_isInner hc, join, if_neg (by simp [isAbsolute_of_isFull hc.isFull]), if_pos hends,
        unsplit_singleton]
    rw [List.foldl_cons, hfirst, foldl_push_unsplit start (List.cons_ne_nil _ _)
      (List.forall_mem_singleton.mpr hc.isFull) fun d hd => hinner d (List.mem_cons_of_mem _ hd)]
    rfl

/-- Components that are written are put one below the other as they are written. -/
theorem stack_of_isWritten {components : List Component} (h : IsWritten components) :
    stack components = ofComponents components := by
  unfold IsWritten at h
  split at h
  · exact foldl_push_start (.inr rfl) h
  · exact foldl_push_unsplit [] (List.cons_ne_nil _ _) (List.forall_mem_singleton.mpr isFull_dot) h
  · rw [ofComponents_of_isInner h]
    exact foldl_push_start (.inl rfl) h

/-- The normal form of a path is its components put one below the other. -/
theorem stack_components (p : Path) : stack p.components = p.normalize :=
  stack_of_isWritten p.isWritten_components

/-! ## The order of normal forms -/

/-- A path comes before another one. -/
def Precedes (p q : Path) : Prop := compare p q = .lt

theorem not_precedes_self (p : Path) : ¬ Precedes p p := by
  rw [Precedes, compare_eq_eq_iff.mpr (Same.refl p)]
  nofun

theorem Precedes.trans {r : Path} (h : Precedes p q) (h' : Precedes q r) : Precedes p r :=
  Std.TransCmp.lt_trans h h'

/-- Of two paths that are not the same one comes first. -/
theorem same_of_not_precedes (h : ¬ Precedes p q) (h' : ¬ Precedes q p) : Same p q := by
  rw [← compare_eq_eq_iff]
  cases hcompare : compare p q with
  | lt => exact absurd hcompare h
  | eq => rfl
  | gt => exact absurd (Std.OrientedCmp.lt_of_gt hcompare) h'

/-- A path in normal form. -/
def NormalPath : Type := { p : Path // p.normalize = p }

/-- Normal forms are ordered strictly and totally. -/
theorem isStrictTotalOrder_precedes :
    IsStrictTotalOrder NormalPath fun p q => Precedes p.1 q.1 where
  irrefl p := not_precedes_self p.1
  trans _ _ _ := Precedes.trans
  trichotomous p q h h' := by
    refine Subtype.ext ?_
    rw [← p.2, ← q.2]
    exact normalize_congr (same_of_not_precedes h h')

end DiagnosticRelay.Path
