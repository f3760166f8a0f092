import DiagnosticRelay.Proofs.Path.Relative
import DiagnosticRelay.Proofs.Text.Utf8Order
import DiagnosticRelay.Store.Update

/-!
# Local paths of reported ones

A reported path that lies below the mount point stands for a path below the workspace
root, and any other one for itself. Which path that is depends on components alone, so it
does not matter how anything is spelled, and it is always written in normal form.

Each of the two ways keeps different paths apart. So two of them come to one local path
only if they go different ways: one lies below the mount point, and the other is the very
path below the root that the first one stands for.

## Main definitions

* `Mapping.LiesBelow`: a reported path lies below the mount point.
* `Mapping.Collides`: a path below the mount point stands for another reported one.
* `Mapping.IsRelocation`: what a mapping does to reported paths.

## Main results

* `localPath_of_liesBelow`, `localPath_of_not_liesBelow`: the two ways.
* `localPath_eq_iff`: the only collisions.
* `isRelocation`: every mapping.
-/

namespace DiagnosticRelay.Mapping

variable {m other : Mapping} {reported second : String} {inner : List Path.Component}

/-! ## Below the mount point -/

/-- A reported path lies below the mount point, and this is what is below. An empty mount
point is none, so nothing lies below it. -/
def LiesBelow (m : Mapping) (reported : String) (inner : List Path.Component) : Prop :=
  m.mount ≠ "" ∧
    (Path.ofString reported).components = (Path.ofString m.mount).components ++ inner

/-- Only the empty text has no components. -/
theorem components_ofString_eq_nil_iff {text : String} :
    (Path.ofString text).components = [] ↔ text = "" := by
  rw [Path.components_eq_nil_iff, Path.ofString, Octets.ofString_eq_flatMap]
  constructor
  · intro h
    rw [← String.toList_eq_nil_iff, List.eq_nil_iff_forall_not_mem]
    intro c hc
    exact Octets.utf8EncodeChar_ne_nil c (List.flatMap_eq_nil_iff.mp h c hc)
  · rintro rfl
    rfl

theorem LiesBelow.components_mount_ne_nil (h : m.LiesBelow reported inner) :
    (Path.ofString m.mount).components ≠ [] := by
  intro hnil
  exact h.1 (components_ofString_eq_nil_iff.mp hnil)

/-- What lies below the mount point is put below the root. -/
theorem localPath_of_liesBelow (h : m.LiesBelow reported inner) :
    m.localPath reported = .ofComponents (m.root.components ++ inner) := by
  obtain ⟨rest, hrest, hinner⟩ := Path.exists_stripPrefix? h.components_mount_ne_nil h.2
  have hbelow : m.belowMount? (.ofString reported) = some rest := by
    rw [belowMount?, if_neg (by simpa using h.1), hrest]
  have hrest : rest.IsInnerPath := by
    rw [Path.IsInnerPath, hinner]
    exact Path.isInner_of_below h.components_mount_ne_nil h.2
  rw [localPath]
  simp only [hbelow]
  rw [Path.normalize, Path.components_join m.root hrest, hinner]

/-- What does not lie below the mount point stands for itself. -/
theorem localPath_of_not_liesBelow (h : ¬ ∃ inner, m.LiesBelow reported inner) :
    m.localPath reported = (Path.ofString reported).normalize := by
  have hbelow : m.belowMount? (.ofString reported) = none := by
    rw [belowMount?]
    split_ifs with hempty
    · rfl
    · apply Path.stripPrefix?_eq_none
      rintro ⟨inner, hinner⟩
      exact h ⟨inner, by simpa using hempty, hinner.symm⟩
  rw [localPath]
  simp only [hbelow]

theorem normalize_localPath (reported : String) :
    (m.localPath reported).normalize = m.localPath reported := by
  rw [localPath]
  split <;> exact Path.normalize_normalize _

/-- Local paths are spelled in one way. -/
theorem localPath_eq_of_same {a b : String} (h : Path.Same (m.localPath a) (m.localPath b)) :
    m.localPath a = m.localPath b := by
  rw [← normalize_localPath a, ← normalize_localPath b, Path.normalize_congr h]

theorem components_localPath_of_liesBelow (h : m.LiesBelow reported inner) :
    (m.localPath reported).components = m.root.components ++ inner := by
  have hinner := Path.isInner_of_below h.components_mount_ne_nil h.2
  rw [localPath_of_liesBelow h]
  apply Path.components_ofComponents
  exact m.root.isWritten_components.append hinner

theorem components_localPath_of_not_liesBelow (h : ¬ ∃ inner, m.LiesBelow reported inner) :
    (m.localPath reported).components = (Path.ofString reported).components := by
  rw [localPath_of_not_liesBelow h, Path.components_normalize]

/-! ## Spellings -/

theorem liesBelow_congr (hmount : Path.Same (.ofString m.mount) (.ofString other.mount))
    (hreported : Path.Same (.ofString reported) (.ofString second)) :
    m.LiesBelow reported inner ↔ other.LiesBelow second inner := by
  have hempty : m.mount = "" ↔ other.mount = "" := by
    rw [← components_ofString_eq_nil_iff, ← components_ofString_eq_nil_iff, hmount]
  rw [LiesBelow, LiesBelow, hreported, hmount, ne_eq, ne_eq, hempty]

/-- Neither the spelling of what is reported counts, nor that of the mount point, nor that
of the root. -/
theorem localPath_congr (hroot : Path.Same m.root other.root)
    (hmount : Path.Same (.ofString m.mount) (.ofString other.mount))
    (hreported : Path.Same (.ofString reported) (.ofString second)) :
    m.localPath reported = other.localPath second := by
  by_cases h : ∃ inner, m.LiesBelow reported inner
  · obtain ⟨inner, hinner⟩ := h
    rw [localPath_of_liesBelow hinner,
      localPath_of_liesBelow ((liesBelow_congr hmount hreported).mp hinner), hroot]
  · have hother : ¬ ∃ inner, other.LiesBelow second inner := by
      rintro ⟨inner, hinner⟩
      exact h ⟨inner, (liesBelow_congr hmount hreported).mpr hinner⟩
    rw [localPath_of_not_liesBelow h, localPath_of_not_liesBelow hother,
      Path.normalize_congr hreported]

/-! ## Collisions -/

/-- A path below the mount point stands for another reported one, which is not below the
mount point but is the path below the root that the first stands for. -/
def Collides (m : Mapping) (reported second : String) : Prop :=
  ∃ inner, m.LiesBelow reported inner ∧ (¬ ∃ inner, m.LiesBelow second inner) ∧
    (Path.ofString second).components = m.root.components ++ inner

theorem Collides.localPath_eq (h : m.Collides reported second) :
    m.localPath reported = m.localPath second := by
  obtain ⟨inner, hbelow, hbeside, hsecond⟩ := h
  apply localPath_eq_of_same
  rw [Path.Same, components_localPath_of_liesBelow hbelow,
    components_localPath_of_not_liesBelow hbeside, hsecond]

/-- Different paths come to one local path only if one of them stands for the other. -/
theorem localPath_eq_iff (hne : ¬ Path.Same (.ofString reported) (.ofString second)) :
    m.localPath reported = m.localPath second ↔
      m.Collides reported second ∨ m.Collides second reported := by
  constructor
  · intro heq
    have hcomponents := congrArg Path.components heq
    by_cases hfirst : ∃ inner, m.LiesBelow reported inner
    · obtain ⟨inner, hfirst⟩ := hfirst
      rw [components_localPath_of_liesBelow hfirst] at hcomponents
      by_cases hsecond : ∃ inner, m.LiesBelow second inner
      · -- Below the mount point, what is below tells paths apart.
        obtain ⟨inner', hsecond⟩ := hsecond
        rw [components_localPath_of_liesBelow hsecond] at hcomponents
        obtain rfl := List.append_cancel_left hcomponents
        exact absurd (hfirst.2.trans hsecond.2.symm) hne
      · rw [components_localPath_of_not_liesBelow hsecond] at hcomponents
        exact .inl ⟨inner, hfirst, hsecond, hcomponents.symm⟩
    · rw [components_localPath_of_not_liesBelow hfirst] at hcomponents
      by_cases hsecond : ∃ inner, m.LiesBelow second inner
      · obtain ⟨inner, hsecond⟩ := hsecond
        rw [components_localPath_of_liesBelow hsecond] at hcomponents
        exact .inr ⟨inner, hsecond, hfirst, hcomponents⟩
      · rw [components_localPath_of_not_liesBelow hsecond] at hcomponents
        exact absurd hcomponents hne
  · rintro (h | h)
    · exact h.localPath_eq
    · exact h.localPath_eq.symm

/-! ## All of it -/

/-- What a mapping does to reported paths. -/
structure IsRelocation (m : Mapping) : Prop where
  /-- What is below the mount point is moved below the root, … -/
  below : ∀ reported inner, m.LiesBelow reported inner →
    m.localPath reported = .ofComponents (m.root.components ++ inner) ∧
      (m.localPath reported).components = m.root.components ++ inner
  /-- … and all else stays where it is. -/
  beside : ∀ reported, (¬ ∃ inner, m.LiesBelow reported inner) →
    m.localPath reported = (Path.ofString reported).normalize
  normal : ∀ reported, (m.localPath reported).normalize = m.localPath reported
  spellings : ∀ (other : Mapping) (reported second : String), Path.Same m.root other.root →
    Path.Same (.ofString m.mount) (.ofString other.mount) →
    Path.Same (.ofString reported) (.ofString second) →
      m.localPath reported = other.localPath second
  inside : ∀ reported, (∃ inner, m.LiesBelow reported inner) →
    m.root.components <+: (m.localPath reported).components
  collisions : ∀ reported second, ¬ Path.Same (.ofString reported) (.ofString second) →
    (m.localPath reported = m.localPath second ↔
      m.Collides reported second ∨ m.Collides second reported)

/-- Every mapping is one from below the mount point to below the root, whatever the root
is, and nothing else. -/
theorem isRelocation (m : Mapping) : m.IsRelocation where
  below _ _ h := ⟨localPath_of_liesBelow h, components_localPath_of_liesBelow h⟩
  beside _ h := localPath_of_not_liesBelow h
  normal reported := normalize_localPath reported
  spellings _ _ _ hroot hmount hreported := localPath_congr hroot hmount hreported
  inside reported h := by
    obtain ⟨inner, hinner⟩ := h
    rw [components_localPath_of_liesBelow hinner]
    exact List.prefix_append _ _
  collisions _ _ hne := localPath_eq_iff hne

/-- A relative mount point may be spelled with a `.` in front, and what is below it may
climb. -/
example : (Mapping.mk (.ofString "/p/") "./app").localPath "./app//src/../a.php" =
    .ofString "/p/src/../a.php" := by
  decide +kernel

end DiagnosticRelay.Mapping
