import DiagnosticRelay.Proofs.Path.NormalText
import DiagnosticRelay.Proofs.Path.Relative

/-!
# The name at the end of a path

The last part of a text is what stands behind its last separator. Unless it is silent it is
the last component of the path. It stays at the end when an upper path is taken off, however
many separators there are in between, for what is taken off and what is trimmed comes before
it. So the name at the end is seen from every directory above.

## Main definitions

* `Path.EndsSilently`: a text that ends with a part that adds no component.

## Main results

* `getLast?_split_eq_some_iff`: the last part in terms of the text.
* `fileName?_eq_some_iff`: the name at the end is the last part.
* `getLast?_split_relativeTo`: the last part as seen from a directory.
-/

namespace DiagnosticRelay.Path

variable {p base : Path} {octets part name : Octets} {parts : List Octets}

/-! ## Last parts -/

theorem split_of_notMem (h : separator ∉ part) : split part = [part] := by
  have hsplit := split_unsplit (List.cons_ne_nil part []) (List.forall_mem_singleton.mpr h)
  rwa [unsplit_singleton] at hsplit

/-- A text is its parts with separators between them. -/
theorem unsplit_split (octets : Octets) : unsplit (split octets) = octets := by
  rw [split_eq_splitOn]
  exact List.intercalate_splitOn separator

theorem exists_getLast?_split (octets : Octets) : ∃ part, (split octets).getLast? = some part :=
  ⟨_, List.getLast?_eq_some_getLast (split_ne_nil octets)⟩

/-- The last part is all of the text, or what stands behind the last separator. -/
theorem getLast?_split_eq_some_iff (h : separator ∉ part) :
    (split octets).getLast? = some part ↔
      octets = part ∨ ∃ upper, octets = upper ++ separator :: part := by
  constructor
  · intro hlast
    obtain ⟨init, hsplit⟩ := List.getLast?_eq_some_iff.mp hlast
    rw [← unsplit_split octets, hsplit]
    by_cases hinit : init = []
    · exact .inl (by rw [hinit, List.nil_append, unsplit_singleton])
    · exact .inr ⟨_, unsplit_concat hinit part⟩
  · rintro (rfl | ⟨upper, rfl⟩)
    · rw [split_of_notMem h]
      rfl
    · rw [split_append_separator_cons, split_of_notMem h, List.getLast?_append]
      rfl

/-- A text that ends with a part that adds no component. -/
def EndsSilently (p : Path) : Prop := [separator] <:+ p.octets ∨ [separator, dot] <:+ p.octets

instance (p : Path) : Decidable p.EndsSilently := inferInstanceAs (Decidable (_ ∨ _))

/-- An absolute path that does not end with `/` or `/.` ends with a part that adds a
component. -/
theorem exists_getLast?_of_not_endsSilently (hp : p.isAbsolute = true) (hend : ¬ p.EndsSilently) :
    ∃ part, (split p.octets).getLast? = some part ∧ isSilent part = false := by
  obtain ⟨part, hlast⟩ := exists_getLast?_split p.octets
  refine ⟨part, hlast, ?_⟩
  by_contra hsilent
  have hseparator := separator_notMem_of_mem_split (List.mem_of_getLast? hlast)
  simp only [isSilent, Bool.not_eq_false, Bool.or_eq_true, beq_iff_eq] at hsilent
  rcases (getLast?_split_eq_some_iff hseparator).mp hlast with htext | ⟨upper, htext⟩
  · -- The text is not silent as a whole, for it starts with a separator.
    rw [isAbsolute, htext] at hp
    rcases hsilent with rfl | rfl <;> cases hp
  · rcases hsilent with rfl | rfl
    · exact hend (.inl ⟨upper, htext.symm⟩)
    · exact hend (.inr ⟨upper, htext.symm⟩)

/-! ## Last components -/

/-- The last component of a path is its last part, if that is not silent. -/
theorem getLast?_components (hlast : (split p.octets).getLast? = some part)
    (hpart : isSilent part = false) : p.components.getLast? = Component.ofPart? part := by
  obtain ⟨init, hsplit⟩ := List.getLast?_eq_some_iff.mp hlast
  obtain ⟨c, hc⟩ := ofPart?_isSome hpart
  rw [components, hsplit, List.filterMap_append, List.filterMap_cons_some hc, List.filterMap_nil,
    ← List.append_assoc, List.getLast?_concat, hc]

/-- The name at the end of a path is its last part, unless that goes up. -/
theorem fileName?_eq_some_iff (hlast : (split p.octets).getLast? = some part)
    (hpart : isSilent part = false) (hname : name ≠ [dot, dot]) :
    p.fileName? = some name ↔ part = name := by
  rw [fileName?, getLast?_components hlast hpart, Component.ofPart?,
    if_neg (Bool.eq_false_iff.mp hpart)]
  split_ifs with hup
  · rw [hup]
    refine iff_of_false (fun hparent => ?_) (Ne.symm hname)
    cases hparent
  · exact Option.some_inj

/-! ## Seen from above -/

/-- What is behind the start of a path ends as the path does. -/
theorem getLast?_body (hlast : (split p.octets).getLast? = some part)
    (hpart : isSilent part = false) : p.body.getLast? = some part := by
  rw [body]
  split_ifs with hstart
  · obtain ⟨init, hsplit⟩ := List.getLast?_eq_some_iff.mp hlast
    cases init with
    | nil =>
      have hsilent := isSilent_of_head?_split hstart (by rw [hsplit]; rfl)
      exact absurd hsilent (Bool.eq_false_iff.mp hpart)
    | cons first init => rw [hsplit, List.cons_append, List.tail_cons, List.getLast?_concat]
  · exact hlast

theorem getLast?_of_suffix {upper : List Octets} (hsuffix : parts <:+ upper) (hne : parts ≠ []) :
    parts.getLast? = upper.getLast? := by
  obtain ⟨front, rfl⟩ := hsuffix
  rw [List.getLast?_append_of_ne_nil _ hne]

/-- Nothing is dropped from an end that is not silent. -/
theorem dropSilentEnd_of_getLast? (hlast : parts.getLast? = some part)
    (hpart : isSilent part = false) : dropSilentEnd parts = parts := by
  obtain ⟨init, rfl⟩ := List.getLast?_eq_some_iff.mp hlast
  rw [dropSilentEnd, List.reverse_append, List.reverse_singleton, List.singleton_append,
    List.dropWhile_cons_of_neg (by simp [hpart])]
  simp

/-- A path ends with the same part when it is seen from a directory, unless it is the
directory itself. -/
theorem getLast?_split_relativeTo (hbase : base.components ≠ []) (hne : ¬ Same p base)
    (hlast : (split p.octets).getLast? = some part) (hpart : isSilent part = false) :
    (split (p.relativeTo base).octets).getLast? = some part := by
  by_cases hbelow : base.components <+: p.components
  · obtain ⟨inner, hinner⟩ := hbelow
    obtain ⟨rest, hrest, -⟩ := exists_stripPrefix? hbase hinner.symm
    obtain ⟨parts, rfl, hsuffix, -, hseparators, hparts⟩ := exists_parts_of_stripPrefix? hbase hrest
    have hsome : parts ≠ [] := by
      rintro rfl
      rw [← hinner, List.drop_left, List.filterMap_nil] at hparts
      exact hne (by rw [Same, ← hinner, ← hparts, List.append_nil])
    have hend : parts.getLast? = some part :=
      (getLast?_of_suffix hsuffix hsome).trans (getLast?_body hlast hpart)
    rw [relativeTo, hrest, Option.getD_some, dropSilentEnd_of_getLast? hend hpart,
      split_unsplit hsome hseparators, hend]
  · rw [relativeTo_eq_self hbelow, hlast]

end DiagnosticRelay.Path
