import DiagnosticRelay.Proofs.Path.NormalForm

/-!
# Paths below others

What is below a path can be taken off it and put below another one. Both are done on the
texts, which may hold silent parts anywhere, but what they do to components is plain:
taking off drops the components of the upper path, and putting below appends. Only the
path without any components is no upper path: what stands above it may be relative.

## Main definitions

* `Path.IsInnerPath`: a path that names something below another one.
* `Path.componentsBelow`: what is seen of a path from a directory.

## Main results

* `components_join`: putting a path below another one.
* `components_eq_lead_append`: components are a start and what the body says.
* `exists_stripPrefix?`: taking a path off one below it.
* `components_relativeTo`: a path as seen from a directory.
-/

namespace DiagnosticRelay.Path

variable {p q base : Path} {parts : List Octets} {inner : List Component}

/-! ## Starts -/

/-- A path that names something below another one: it has no start of its own. -/
def IsInnerPath (p : Path) : Prop := ∀ c ∈ p.components, c.IsInner

theorem IsInnerPath.lead_eq_nil (h : p.IsInnerPath) : p.lead = [] := by
  refine List.eq_nil_iff_forall_not_mem.mpr fun c hc => ?_
  have hinner := h c (List.mem_append_left _ hc)
  rw [lead] at hc
  split_ifs at hc
  · rw [List.mem_singleton.mp hc] at hinner
    exact hinner
  · rw [List.mem_singleton.mp hc] at hinner
    exact hinner
  · cases hc

theorem IsInnerPath.isAbsolute_eq_false (h : p.IsInnerPath) : p.isAbsolute = false := by
  have hlead := h.lead_eq_nil
  rw [lead] at hlead
  split_ifs at hlead with habsolute
  exact Bool.eq_false_iff.mpr habsolute

theorem IsInnerPath.components_eq (h : p.IsInnerPath) :
    p.components = (split p.octets).filterMap Component.ofPart? := by
  rw [components, h.lead_eq_nil, List.nil_append]

/-- What stands behind a component of a path has no start of its own. -/
theorem IsWritten.isInner_of_append {upper : List Component} (h : IsWritten (upper ++ inner))
    (hupper : upper ≠ []) : ∀ c ∈ inner, c.IsInner := by
  obtain ⟨first, rest, rfl⟩ := List.exists_cons_of_ne_nil hupper
  intro c hc
  have hbehind : c ∈ rest ++ inner := List.mem_append_right rest hc
  -- Only the first component can be a start, and it is none of these.
  cases first with
  | root => exact h c hbehind
  | here => exact h c hbehind
  | parent => exact h c (List.mem_cons_of_mem _ hbehind)
  | name octets => exact h c (List.mem_cons_of_mem _ hbehind)

/-- What has no start of its own can stand behind any path. -/
theorem IsWritten.append {upper : List Component} (h : IsWritten upper)
    (hinner : ∀ c ∈ inner, c.IsInner) : IsWritten (upper ++ inner) := by
  cases upper with
  | nil => exact isWritten_of_forall_isInner hinner
  | cons first rest =>
    have hfirst : IsWritten ([first] ++ rest) := h
    have hrest := hfirst.isInner_of_append (List.cons_ne_nil first [])
    have hbehind : ∀ c ∈ rest ++ inner, c.IsInner := List.forall_mem_append.mpr ⟨hrest, hinner⟩
    cases first with
    | root => exact hbehind
    | here => exact hbehind
    | parent => exact List.forall_mem_cons.mpr ⟨trivial, hbehind⟩
    | name octets => exact List.forall_mem_cons.mpr ⟨h _ List.mem_cons_self, hbehind⟩

/-- Only the empty text has no components. -/
theorem components_eq_nil_iff : p.components = [] ↔ p.octets = [] := by
  constructor
  · intro h
    obtain ⟨hlead, hparts⟩ := List.append_eq_nil_iff.mp h
    by_contra hne
    obtain ⟨b, rest, hoctets⟩ := List.exists_cons_of_ne_nil hne
    rw [lead] at hlead
    split_ifs at hlead with habsolute hhere
    have hb : b ≠ separator := by
      intro hb
      exact habsolute (by simp [isAbsolute, hoctets, hb])
    obtain ⟨part, parts, hsplit⟩ := List.exists_cons_of_ne_nil (split_ne_nil rest)
    have hfirst : split p.octets = (b :: part) :: parts := by
      rw [hoctets, split, if_neg hb, hsplit]
    -- The first part is neither empty nor a `.`, so it is read as a component.
    have hsilent : isSilent (b :: part) = false := by
      rw [isSilent_eq_false_iff]
      refine ⟨List.cons_ne_nil b part, ?_⟩
      intro hdot
      exact hhere (by rw [startsHere, hfirst, hdot]; rfl)
    rw [hfirst, List.filterMap_cons, Component.ofPart?, if_neg (by simp [hsilent])] at hparts
    split_ifs at hparts
  · intro h
    rw [components, lead, isAbsolute, startsHere, h]
    rfl

/-! ## Putting below -/

theorem split_append_separator_cons (octets rest : Octets) :
    split (octets ++ separator :: rest) = split octets ++ split rest := by
  induction octets with
  | nil => exact split_separator_cons rest
  | cons b octets ih =>
    rw [List.cons_append, split, split, ih]
    split_ifs
    · rfl
    · obtain ⟨part, parts, hsplit⟩ := List.exists_cons_of_ne_nil (split_ne_nil octets)
      rw [hsplit]
      rfl

/-- A path is put below another one behind one separator. -/
theorem exists_octets_join (hbase : base.octets ≠ []) (hp : p.isAbsolute = false) :
    ∃ upper, (base.join p).octets = upper ++ separator :: p.octets ∧
      (base.octets = upper ∨ base.octets = upper ++ [separator]) := by
  rw [join, if_neg (by simp [hp])]
  split_ifs with hends
  · obtain ⟨upper, hupper⟩ := List.getLast?_eq_some_iff.mp (hends.resolve_left hbase)
    exact ⟨upper, by simp [hupper], .inr hupper⟩
  · exact ⟨base.octets, rfl, .inl rfl⟩

/-- Whether a text starts with a `.` part is decided before its first separator. -/
theorem startsHere_append_separator_cons (upper rest : Octets) :
    (Path.mk (upper ++ separator :: rest)).startsHere = (Path.mk upper).startsHere := by
  obtain ⟨part, parts, hsplit⟩ := List.exists_cons_of_ne_nil (split_ne_nil upper)
  rw [startsHere, startsHere, split_append_separator_cons, hsplit]
  rfl

/-- What stands behind a separator is read on its own. -/
theorem components_append_separator_cons (upper rest : Octets) :
    (Path.mk (upper ++ separator :: rest)).components =
      (Path.mk (upper ++ [separator])).components ++
        (split rest).filterMap Component.ofPart? := by
  have habsolute : (Path.mk (upper ++ separator :: rest)).isAbsolute =
      (Path.mk (upper ++ [separator])).isAbsolute := by cases upper <;> rfl
  have hlead : (Path.mk (upper ++ separator :: rest)).lead =
      (Path.mk (upper ++ [separator])).lead := by
    rw [lead, lead, habsolute, startsHere_append_separator_cons, startsHere_append_separator_cons]
  have hend : (split []).filterMap Component.ofPart? = [] := rfl
  rw [components, components, hlead, split_append_separator_cons, split_append_separator_cons,
    List.filterMap_append, List.filterMap_append, hend, List.append_nil, List.append_assoc]

/-- A separator at the end of a text adds nothing. -/
theorem components_append_separator {upper : Octets} (h : upper ≠ []) :
    (Path.mk (upper ++ [separator])).components = (Path.mk upper).components := by
  have habsolute : (Path.mk (upper ++ [separator])).isAbsolute = (Path.mk upper).isAbsolute := by
    cases upper with
    | nil => exact absurd rfl h
    | cons b octets => rfl
  have hlead : (Path.mk (upper ++ [separator])).lead = (Path.mk upper).lead := by
    rw [lead, lead, habsolute, startsHere_append_separator_cons]
  have hend : (split []).filterMap Component.ofPart? = [] := rfl
  rw [components, components, hlead, split_append_separator_cons, List.filterMap_append, hend,
    List.append_nil]

/-- What is put below another path is read behind it, whatever it starts with. -/
theorem components_join_eq (hbase : base.octets ≠ []) (hp : p.isAbsolute = false) :
    (base.join p).components =
      base.components ++ (split p.octets).filterMap Component.ofPart? := by
  obtain ⟨upper, hjoined, hupper⟩ := exists_octets_join hbase hp
  -- Whether the upper path ends with a separator makes no difference.
  have hends : (Path.mk (upper ++ [separator])).components = base.components := by
    rcases hupper with hupper | hupper
    · rw [components_append_separator (hupper ▸ hbase), ← hupper]
    · rw [← hupper]
  calc (base.join p).components
      = (Path.mk (upper ++ separator :: p.octets)).components := by rw [← hjoined]
    _ = base.components ++ (split p.octets).filterMap Component.ofPart? := by
      rw [components_append_separator_cons, hends]

/-- The components of a path that is put below another one come after those of the other. -/
theorem components_join (base : Path) (hp : p.IsInnerPath) :
    (base.join p).components = base.components ++ p.components := by
  by_cases hbase : base.octets = []
  · have hjoin : base.join p = p := by
      rw [join, if_neg (by simp [hp.isAbsolute_eq_false]), if_pos (.inl hbase), hbase,
        List.nil_append]
    rw [hjoin, components_eq_nil_iff.mpr hbase, List.nil_append]
  · rw [components_join_eq hbase hp.isAbsolute_eq_false, ← hp.components_eq]

/-! ## Taking off -/

theorem ofPart?_of_isSilent {part : Octets} (h : isSilent part = true) :
    Component.ofPart? part = none :=
  if_pos h

theorem ofPart?_isSome {part : Octets} (h : isSilent part = false) :
    ∃ c, Component.ofPart? part = some c := by
  rw [Component.ofPart?, if_neg (Bool.eq_false_iff.mp h)]
  split_ifs <;> exact ⟨_, rfl⟩

theorem isPrefix_dropSilentEnd (parts : List Octets) : dropSilentEnd parts <+: parts := by
  rw [← List.reverse_suffix, dropSilentEnd, List.reverse_reverse]
  exact List.dropWhile_suffix isSilent

/-- Silent parts at the end add nothing. -/
theorem filterMap_dropSilentEnd (parts : List Octets) :
    (dropSilentEnd parts).filterMap Component.ofPart? = parts.filterMap Component.ofPart? := by
  have hdropped (parts : List Octets) :
      (parts.dropWhile isSilent).filterMap Component.ofPart? =
        parts.filterMap Component.ofPart? := by
    induction parts with
    | nil => rfl
    | cons part parts ih =>
      cases hsilent : isSilent part with
      | true =>
        rw [List.dropWhile_cons_of_pos hsilent, ih,
          List.filterMap_cons_none (ofPart?_of_isSilent hsilent)]
      | false => rw [List.dropWhile_cons_of_neg (by simp [hsilent])]
  rw [dropSilentEnd, List.filterMap_reverse, hdropped, ← List.filterMap_reverse,
    List.reverse_reverse]

theorem isSilent_head?_dropSilentEnd (h : ∀ part ∈ parts.head?, isSilent part = false) :
    ∀ part ∈ (dropSilentEnd parts).head?, isSilent part = false := by
  intro part hpart
  obtain ⟨rest, hrest⟩ := isPrefix_dropSilentEnd parts
  refine h part ?_
  rw [← hrest, List.head?_append, Option.mem_def.mp hpart]
  rfl

theorem filterMap_dropComponents (n : Nat) (parts : List Octets) :
    (dropComponents n parts).filterMap Component.ofPart? =
      (parts.filterMap Component.ofPart?).drop n := by
  fun_induction dropComponents n parts with
  | case1 n => rw [List.filterMap_nil, List.drop_nil]
  | case2 n part parts hsilent ih =>
    rw [ih, List.filterMap_cons_none (ofPart?_of_isSilent hsilent)]
  | case3 part parts hsilent => rfl
  | case4 part parts hsilent n ih =>
    obtain ⟨c, hc⟩ := ofPart?_isSome (Bool.eq_false_iff.mpr hsilent)
    rw [ih, List.filterMap_cons_some hc, List.drop_succ_cons]

theorem dropComponents_suffix (n : Nat) (parts : List Octets) :
    dropComponents n parts <:+ parts := by
  fun_induction dropComponents n parts with
  | case1 n => exact List.suffix_refl _
  | case2 n part parts hsilent ih => exact ih.trans (List.suffix_cons part parts)
  | case3 part parts hsilent => exact List.suffix_refl _
  | case4 part parts hsilent n ih => exact ih.trans (List.suffix_cons part parts)

theorem isSilent_head?_dropComponents (n : Nat) (parts : List Octets) :
    ∀ part ∈ (dropComponents n parts).head?, isSilent part = false := by
  fun_induction dropComponents n parts with
  | case1 n => exact nofun
  | case2 n part parts hsilent ih => exact ih
  | case3 part parts hsilent =>
    intro first hfirst
    rw [← Option.some.inj hfirst]
    exact Bool.eq_false_iff.mpr hsilent
  | case4 part parts hsilent n ih => exact ih

/-- The part that makes the start of a path is silent. -/
theorem isSilent_of_head?_split {part : Octets} (hstart : p.isAbsolute = true ∨ p.startsHere = true)
    (hfirst : (split p.octets).head? = some part) : isSilent part = true := by
  rcases hstart with habsolute | hhere
  · have hhead : p.octets.head? = some separator := by simpa [isAbsolute] using habsolute
    obtain ⟨rest, hoctets⟩ := List.head?_eq_some_iff.mp hhead
    rw [hoctets, split_separator_cons, List.head?_cons] at hfirst
    rw [← Option.some.inj hfirst]
    rfl
  · have hdot : part = [dot] := by simpa [startsHere, hfirst] using hhere
    rw [hdot]
    rfl

/-- A path is its start and what its body says. -/
theorem components_eq_lead_append (p : Path) :
    p.components = p.lead ++ p.body.filterMap Component.ofPart? := by
  obtain ⟨part, parts, hsplit⟩ := List.exists_cons_of_ne_nil (split_ne_nil p.octets)
  rw [components, body]
  split_ifs with hstart
  · have hsilent := isSilent_of_head?_split hstart (by rw [hsplit, List.head?_cons])
    rw [hsplit, List.filterMap_cons_none (ofPart?_of_isSilent hsilent), List.tail_cons]
  · rfl

theorem length_lead_le (p : Path) : p.lead.length ≤ 1 := by
  rw [lead]
  split_ifs <;> simp

theorem separator_notMem_of_mem_body {part : Octets} (h : part ∈ p.body) :
    separator ∉ part := by
  rw [body] at h
  split_ifs at h
  · exact separator_notMem_of_mem_split (List.mem_of_mem_tail h)
  · exact separator_notMem_of_mem_split h

/-- What is left when a path is taken off are parts from the end of the body, the first of
which is not silent, without the silent ones behind them. -/
theorem exists_parts_of_stripPrefix? {rest : Path} (hbase : base.components ≠ [])
    (hrest : p.stripPrefix? base = some rest) :
    ∃ parts, rest = ⟨unsplit (dropSilentEnd parts)⟩ ∧ parts <:+ p.body ∧
      (∀ part ∈ parts.head?, isSilent part = false) ∧ (∀ part ∈ parts, separator ∉ part) ∧
      parts.filterMap Component.ofPart? = p.components.drop base.components.length := by
  have hprefix : base.components.isPrefixOf p.components = true := by
    by_contra hprefix
    rw [stripPrefix?, if_neg hprefix] at hrest
    cases hrest
  have hlength : p.lead.length ≤ base.components.length := by
    have hpos := List.length_pos_iff.mpr hbase
    have hlead := p.length_lead_le
    omega
  rw [stripPrefix?, if_pos hprefix, if_neg hbase] at hrest
  refine ⟨_, (Option.some.inj hrest).symm, dropComponents_suffix _ _,
    isSilent_head?_dropComponents _ _, fun part hpart => ?_, ?_⟩
  · exact separator_notMem_of_mem_body ((dropComponents_suffix _ _).subset hpart)
  · -- What the body says is all but the start, and that belongs to the upper path.
    have hbody : p.body.filterMap Component.ofPart? = p.components.drop p.lead.length := by
      rw [components_eq_lead_append, List.drop_left]
    rw [filterMap_dropComponents, hbody, List.drop_drop, Nat.add_sub_cancel' hlength]

/-- A path is taken off every path below it. What is left are the components below. -/
theorem exists_stripPrefix? (hbase : base.components ≠ [])
    (hp : p.components = base.components ++ inner) :
    ∃ rest, p.stripPrefix? base = some rest ∧ rest.components = inner := by
  have hprefix : base.components.isPrefixOf p.components = true := by
    rw [List.isPrefixOf_iff_prefix, hp]
    exact List.prefix_append _ _
  obtain ⟨rest, hrest⟩ : ∃ rest, p.stripPrefix? base = some rest := by
    rw [stripPrefix?, if_pos hprefix, if_neg hbase]
    exact ⟨_, rfl⟩
  obtain ⟨parts, rfl, -, hfirst, hseparators, hparts⟩ := exists_parts_of_stripPrefix? hbase hrest
  refine ⟨_, hrest, ?_⟩
  rw [components_unsplit, filterMap_dropSilentEnd, hparts, hp, List.drop_left]
  · exact fun part hpart => hseparators part ((isPrefix_dropSilentEnd _).subset hpart)
  · exact isSilent_head?_dropSilentEnd hfirst

theorem stripPrefix?_eq_none (h : ¬ base.components <+: p.components) :
    p.stripPrefix? base = none := by
  rw [stripPrefix?, if_neg (by rwa [List.isPrefixOf_iff_prefix])]

theorem components_ne_nil_of_isAbsolute (h : p.isAbsolute = true) : p.components ≠ [] := by
  obtain ⟨rest, hrest, -⟩ := components_of_isAbsolute h
  rw [hrest]
  exact List.cons_ne_nil _ rest

/-- What is below a path that has components has no start of its own. -/
theorem isInner_of_below (hbase : base.components ≠ [])
    (hp : p.components = base.components ++ inner) : ∀ c ∈ inner, c.IsInner := by
  have hwritten := p.isWritten_components
  rw [hp] at hwritten
  exact hwritten.isInner_of_append hbase

/-! ## Seen from a directory -/

/-- The components of a path as seen from a directory: those below it, or all of them. -/
def componentsBelow (base p : Path) : List Component :=
  if base.components <+: p.components then p.components.drop base.components.length
  else p.components

theorem componentsBelow_congr (h : Same p q) : componentsBelow base p = componentsBelow base q := by
  rw [componentsBelow, componentsBelow, h]

/-- A path that is not below a directory is seen as it is. -/
theorem relativeTo_eq_self (h : ¬ base.components <+: p.components) : p.relativeTo base = p := by
  rw [relativeTo, stripPrefix?_eq_none h, Option.getD_none]

theorem components_relativeTo (hbase : base.components ≠ []) (p : Path) :
    (p.relativeTo base).components = componentsBelow base p := by
  rw [componentsBelow]
  split_ifs with hbelow
  · obtain ⟨inner, hinner⟩ := hbelow
    obtain ⟨rest, hrest, hcomponents⟩ := exists_stripPrefix? hbase hinner.symm
    rw [relativeTo, hrest, Option.getD_some, hcomponents, ← hinner, List.drop_left]
  · rw [relativeTo_eq_self hbelow]

theorem components_eq_append (hbelow : base.components <+: p.components) :
    p.components = base.components ++ componentsBelow base p := by
  obtain ⟨inner, hinner⟩ := hbelow
  rw [componentsBelow, if_pos ⟨inner, hinner⟩, ← hinner, List.drop_left]

/-- A path below a directory has no start of its own as seen from there. -/
theorem isInnerPath_relativeTo (hbase : base.components ≠ [])
    (hbelow : base.components <+: p.components) : (p.relativeTo base).IsInnerPath := by
  rw [IsInnerPath, components_relativeTo hbase]
  exact isInner_of_below hbase (components_eq_append hbelow)

theorem isAbsolute_relativeTo_iff (hbase : base.components ≠ []) (hp : p.isAbsolute = true) :
    (p.relativeTo base).isAbsolute = true ↔ ¬ base.components <+: p.components := by
  constructor
  · intro habsolute hbelow
    have hinner := (isInnerPath_relativeTo hbase hbelow).isAbsolute_eq_false
    exact Bool.false_ne_true (hinner.symm.trans habsolute)
  · intro hbelow
    rwa [relativeTo_eq_self hbelow]

/-- Only the directory itself is nothing as seen from it. -/
theorem componentsBelow_ne_nil (hp : p.isAbsolute = true) (hne : ¬ Same p base) :
    componentsBelow base p ≠ [] := by
  intro hnil
  by_cases hbelow : base.components <+: p.components
  · exact hne (by rw [Same, components_eq_append hbelow, hnil, List.append_nil])
  · rw [componentsBelow, if_neg hbelow] at hnil
    exact components_ne_nil_of_isAbsolute hp hnil

end DiagnosticRelay.Path
