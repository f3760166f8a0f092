import DiagnosticRelay.Proofs.Path.NormalForm
import DiagnosticRelay.Proofs.Url.Encoding
import DiagnosticRelay.Url.FilePath

/-!
# URLs of files

Absolute paths have URLs, other paths have none, and the URL of a path says no less
and no more than the path means.

## Main results

* `isSome_ofFilePath?_iff`: who has a URL.
* `ofFilePath?_eq_some_iff`: the same URL is the same path.
-/

namespace DiagnosticRelay.Url

open DiagnosticRelay.Path (Component)

variable {p q : Path} {u : Url}

theorem ofFilePath?_of_components {rest : List Component} (h : p.components = .root :: rest) :
    ofFilePath? p = some {
      scheme := "file".toList
      authority := some {}
      path := .segments (segmentsOfComponents rest) } := by
  rw [ofFilePath?, h]

theorem exists_components_of_ofFilePath? (h : ofFilePath? p = some u) :
    ∃ rest, p.components = .root :: rest := by
  rw [ofFilePath?] at h
  split at h
  next rest hrest => exact ⟨rest, hrest⟩
  · cases h

/-- The absolute paths have URLs, and no others. -/
theorem isSome_ofFilePath?_iff (p : Path) : (ofFilePath? p).isSome = true ↔ p.isAbsolute = true := by
  rw [Option.isSome_iff_exists]
  constructor
  · rintro ⟨u, hu⟩
    obtain ⟨rest, hrest⟩ := exists_components_of_ofFilePath? hu
    exact Path.isAbsolute_of_components hrest
  · intro habsolute
    obtain ⟨rest, hrest, -⟩ := Path.components_of_isAbsolute habsolute
    exact ⟨_, ofFilePath?_of_components hrest⟩

/-- The components that are written as segments are read back. -/
theorem filterMap_decode_segmentsOfComponents {components : List Component}
    (h : ∀ c ∈ components, c.IsInner) :
    ((segmentsOfComponents components).map decode).filterMap Component.ofPart? = components := by
  cases components with
  | nil => rfl
  | cons c rest =>
    have htexts : (segmentsOfComponents (c :: rest)).map decode = (c :: rest).map Component.text := by
      rw [segmentsOfComponents, List.map_map]
      · exact List.map_congr_left fun d _ => decode_encode (by decide) d.text
      · simp
    rw [htexts, Path.filterMap_ofPart?_text h]

/-- Paths with the same URL are the same path. -/
theorem same_of_ofFilePath? (hp : ofFilePath? p = some u) (hq : ofFilePath? q = some u) :
    Path.Same p q := by
  obtain ⟨ps, hps⟩ := exists_components_of_ofFilePath? hp
  obtain ⟨qs, hqs⟩ := exists_components_of_ofFilePath? hq
  have hsegments : segmentsOfComponents ps = segmentsOfComponents qs := by
    rw [ofFilePath?_of_components hps] at hp
    rw [ofFilePath?_of_components hqs, ← hp] at hq
    simpa using hq.symm
  have hinner {r : Path} {rs : List Component} (h : r.components = .root :: rs) :
      ∀ c ∈ rs, c.IsInner := by
    have hwritten := r.isWritten_components
    rwa [h] at hwritten
  have heq : ps = qs := by
    rw [← filterMap_decode_segmentsOfComponents (hinner hps), hsegments,
      filterMap_decode_segmentsOfComponents (hinner hqs)]
  rw [Path.Same, hps, hqs, heq]

/-- The URL of a path is that of the paths that are the same. -/
theorem ofFilePath?_eq_some_iff (hp : ofFilePath? p = some u) :
    ofFilePath? q = some u ↔ Path.Same q p := by
  refine ⟨fun hq => same_of_ofFilePath? hq hp, fun h => ?_⟩
  rw [← hp, ofFilePath?, ofFilePath?, h]

end DiagnosticRelay.Url
