import DiagnosticRelay.Proofs.Path.Reading
import DiagnosticRelay.Proofs.Shell.Quoting
import DiagnosticRelay.Run.Pass

/-!
# The operand of a run

A run of a single file gives the analyser the file as it is seen from the root: the rest of
its path below the root, or the whole path. The analyser runs in the root, so what it gets
leads back to the file, if it is text. Nothing is put before what is below the root, so it
starts as the first name there does.

## Main definitions

* `Path.IsOperand`: what is given for a file.

## Main results

* `Path.same_join_relativeTo_iff`: what is given leads back to the file if it is text.
* `Launch.operand_denotes_target`: what a run gives for its file.
* `Launch.operand_misleads`: a name that starts with a dash, and one that is no text.
-/

namespace DiagnosticRelay

namespace Path

variable {base p : Path}

/-! ## Back to the path -/

/-- What is seen from a directory leads back to the path if it is a text. -/
theorem same_join_relativeTo_iff (hbase : base.isAbsolute = true) (hp : p.isAbsolute = true) :
    Same (base.join (ofString (p.relativeTo base).display)) p ↔
      ∀ c ∈ componentsBelow base p, Octets.IsText c.text := by
  have hsome := components_ne_nil_of_isAbsolute hbase
  have habsolute := isAbsolute_ofString_display (p.relativeTo base)
  rw [← components_relativeTo hsome, ← isText_octets_iff, ← filterMap_split_ofString_display, Same]
  by_cases hbelow : base.components <+: p.components
  · have hinner := isInnerPath_relativeTo hsome hbelow
    rw [hinner.isAbsolute_eq_false] at habsolute
    rw [components_join_eq (mt components_eq_nil_iff.mpr hsome) habsolute,
      components_eq_append hbelow, ← components_relativeTo hsome, hinner.components_eq,
      List.append_cancel_left_eq]
  · -- The path itself is given, and it takes the place of the directory.
    have hwhole := relativeTo_eq_self hbelow
    rw [hwhole, hp] at habsolute
    rw [hwhole, join, if_pos habsolute, components_eq_root_cons habsolute,
      components_eq_root_cons hp, List.cons_inj_right]

/-! ## Dashes -/

/-- The character `-`. -/
def dash : UInt8 := 0x2D

/-- What starts with a dash starts with a name that does. -/
theorem filterMap_split_dash_cons (octets : Octets) :
    ∃ name rest, (split (dash :: octets)).filterMap Component.ofPart? =
      .name (dash :: name) :: rest := by
  obtain ⟨part, parts, hsplit⟩ := List.exists_cons_of_ne_nil (split_ne_nil octets)
  have hname : Component.ofPart? (dash :: part) = some (.name (dash :: part)) := by
    simp [Component.ofPart?, isSilent, dash, dot]
  have hdash : split ([dash] ++ octets) = ([dash] ++ part) :: parts :=
    split_append_of_notMem (by decide) hsplit
  rw [List.singleton_append, List.singleton_append] at hdash
  exact ⟨part, _, by rw [hdash, List.filterMap_cons_some hname]⟩

/-- As seen from a directory a path starts with a dash only if the first name below does. -/
theorem exists_name_of_head?_relativeTo (hbase : base.components ≠ []) (hp : p.isAbsolute = true)
    (hhead : (p.relativeTo base).octets.head? = some dash) :
    ∃ name rest, p.components = base.components ++ .name (dash :: name) :: rest := by
  by_cases hbelow : base.components <+: p.components
  · obtain ⟨octets, hoctets⟩ := List.head?_eq_some_iff.mp hhead
    obtain ⟨name, rest, hname⟩ := filterMap_split_dash_cons octets
    refine ⟨name, rest, ?_⟩
    rw [components_eq_append hbelow, ← components_relativeTo hbase,
      (isInnerPath_relativeTo hbase hbelow).components_eq, hoctets, hname]
  · have habsolute := (isAbsolute_relativeTo_iff hbase hp).mpr hbelow
    rw [isAbsolute, hhead] at habsolute
    cases habsolute

/-! ## Operands -/

/-- What is given for a file that is not the root itself. -/
structure IsOperand (root target : Path) (text : String) : Prop where
  /-- Something is given. -/
  ne_empty : text ≠ ""
  /-- It starts with a dash only where the file is in the root and the first name below the
  root starts with one. -/
  name_of_dash : text.toList.head? = some '-' →
    ∃ name rest, target.components = root.components ++ .name (dash :: name) :: rest
  /-- It is relative for files in the root, and absolute for others. -/
  isAbsolute_iff : (ofString text).isAbsolute = true ↔ ¬ root.components <+: target.components
  /-- It leads from the root to the file if what is given of its path is text. -/
  denotes_iff : Same (root.join (ofString text)) target ↔
    ∀ c ∈ componentsBelow root target, Octets.IsText c.text

variable {root target spelled : Path} {text : String}

/-- All spellings of a file may be given alike. -/
theorem IsOperand.congr (h : IsOperand root spelled text) (hspelled : Same spelled target) :
    IsOperand root target text where
  ne_empty := h.ne_empty
  name_of_dash hhead := hspelled ▸ h.name_of_dash hhead
  isAbsolute_iff := by rw [h.isAbsolute_iff, hspelled]
  denotes_iff := by
    rw [← hspelled.congr_right, h.denotes_iff, componentsBelow_congr hspelled]

/-- What a path looks like from the root is what is given for it. -/
theorem isOperand_operand (hroot : root.isAbsolute = true)
    (htarget : target.isAbsolute = true) (hne : ¬ Same target root) :
    IsOperand root target (Settings.operand root target) := by
  have hsome := components_ne_nil_of_isAbsolute hroot
  refine ⟨?_, ?_, ?_, same_join_relativeTo_iff hroot htarget⟩
  · intro hempty
    have hnone := Octets.toStringLossy_eq_empty_iff.mp hempty
    rw [← components_eq_nil_iff, components_relativeTo hsome] at hnone
    exact componentsBelow_ne_nil htarget hne hnone
  · intro hhead
    have hdash := (Octets.head?_toStringLossy_iff (by decide) (by decide)).mp hhead
    exact exists_name_of_head?_relativeTo hsome htarget hdash
  · rw [Settings.operand, isAbsolute_ofString_display]
    exact isAbsolute_relativeTo_iff hsome htarget

end Path

namespace Launch

/-- The command line of a run ends with the word for what is given for the file. However the
file is spelled, that is not empty, starts with a dash only if the first name below the root
does, and leads from the root to the file if it is text. -/
theorem operand_denotes_target (root target : Path) (hroot : root.isAbsolute = true)
    (htarget : target.isAbsolute = true) (hne : ¬ Path.Same target root) :
    (∀ (settings : Settings) (store : Store),
      (Launch.of root settings store (some target)).commandLine =
        settings.commandLine root none ++
          (if settings.commandLine root none = "" then "" else " ") ++
          String.ofList (Shell.quoteWord (Settings.operand root target.normalize).toList)) ∧
    ∀ spelled : Path, Path.Same spelled target →
      Path.IsOperand root target (Settings.operand root spelled) := by
  constructor
  · intro settings store
    exact settings.commandLine_some root target.normalize
  · intro spelled hspelled
    have habsolute := hspelled.isAbsolute htarget
    have hother : ¬ Path.Same spelled root := fun hsame => hne (hspelled.symm.trans hsame)
    exact (Path.isOperand_operand hroot habsolute hother).congr hspelled

/-- The dash of a name that is not the first one below the root is no dash of an option. -/
theorem operand_denotes_target_dashedName :
    (of (.ofString "/p/./q//") {} .empty (some (.ofString "/p//q/./src/-é.php/"))).commandLine =
        "php vendor/bin/phpstan analyse --error-format=json --no-progress 'src/-é.php'" ∧
      Settings.operand (.ofString "/p/./q//") (.ofString "/p//q/./src/-é.php/") = "src/-é.php" ∧
      Path.IsOperand (.ofString "/p/./q//") (.ofString "/p//q/./src/-é.php/") "src/-é.php" ∧
      Path.Same (.join (.ofString "/p/./q//") (.ofString "src/-é.php"))
        (.ofString "/p//q/./src/-é.php/") := by
  obtain ⟨hline, hspelled⟩ := operand_denotes_target (.ofString "/p/./q//")
    (.ofString "/p//q/./src/-é.php/") (by decide +kernel) (by decide +kernel) (by decide +kernel)
  have hoperand : Settings.operand (.ofString "/p/./q//") (.ofString "/p//q/./src/-é.php/") =
      "src/-é.php" := by decide +kernel
  have hgiven := hspelled _ (Path.Same.refl _)
  rw [hoperand] at hgiven
  refine ⟨(hline {} .empty).trans (by decide +kernel), hoperand, hgiven, ?_⟩
  decide +kernel

/-- What is given for a file may start with a dash, and for a file whose name is no text it
leads elsewhere. -/
theorem operand_misleads :
    (∃ root target : Path, root = .ofString "/p" ∧ target = .ofString "/p/-x.php" ∧
      root.isAbsolute = true ∧ target.isAbsolute = true ∧ ¬ Path.Same target root ∧
      (Settings.operand root target.normalize).toList.head? = some '-') ∧
    ∃ root target : Path, root = .ofString "/p" ∧
      target = ⟨[0x2F, 0x70, 0x2F, 0xFF, 0x2E, 0x70, 0x68, 0x70]⟩ ∧
      root.isAbsolute = true ∧ target.isAbsolute = true ∧ ¬ Path.Same target root ∧
      ¬ Path.Same (root.join (.ofString (Settings.operand root target.normalize))) target :=
  ⟨⟨_, _, rfl, rfl, by decide +kernel, by decide +kernel, by decide +kernel, by decide +kernel⟩,
    _, _, rfl, rfl, by decide +kernel, by decide +kernel, by decide +kernel, by decide +kernel⟩

end Launch

end DiagnosticRelay
