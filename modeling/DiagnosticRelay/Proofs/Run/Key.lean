import DiagnosticRelay.Proofs.Path.NormalText
import DiagnosticRelay.Proofs.Store.Operations
import DiagnosticRelay.Run.Machine

/-!
# Targets and their keys

A file can be spelled in many ways, and every spelling has the same normal form. Runs wait
for each other by it and enter diagnostics under it, so that a file has one key for its runs
and one entry, whatever it is called.

## Main definitions

* `Path.IsNormalFormOf`: what is promised of the normal form of a path.
* `Path.SharesKeys`: paths that are one target.

## Main results

* `Path.sharesKeys_iff_same`: one target is the same path.
* `Path.normalize_is_canonical`: normal forms, their order and their keys.
-/

namespace DiagnosticRelay.Path

variable {n p q : Path}

/-- A path is the normal form of another one. -/
structure IsNormalFormOf (n p : Path) : Prop where
  components_eq : n.components = p.components
  normalize_eq : n.normalize = n
  isNormalText : IsNormalText n.octets
  /-- It comes out when the components are put one below the other. -/
  eq_stack : n = stack p.components

theorem isNormalFormOf_normalize (p : Path) : IsNormalFormOf p.normalize p where
  components_eq := p.components_normalize
  normalize_eq := p.normalize_normalize
  isNormalText := p.isNormalText_normalize
  eq_stack := p.stack_components.symm

/-- Paths are one target: runs on them have one key, start and are launched alike, and they
have one entry in every store. -/
structure SharesKeys (p q : Path) : Prop where
  key_eq : RunKey.ofTarget (some p.normalize) = RunKey.ofTarget (some q.normalize)
  start_eq : ∀ (m : Machine) id, m.start id (some p) = m.start id (some q)
  launch_eq : ∀ root settings store,
    Launch.of root settings store (some p) = Launch.of root settings store (some q)
  get?_eq : ∀ store : Store, store.get? p = store.get? q
  get?_set : ∀ (store : Store) ds, (store.set p ds).get? q = if ds = [] then none else some ds

/-- One target is the same path. -/
theorem sharesKeys_iff_same : SharesKeys p q ↔ Same p q := by
  constructor
  · intro h
    have hkey : p.normalize.components = q.normalize.components := RunKey.file.inj h.key_eq
    rwa [components_normalize, components_normalize] at hkey
  · intro h
    have hnormal : p.normalize = q.normalize := normalize_congr h
    exact {
      key_eq := by rw [hnormal]
      start_eq := fun m id => by
        rw [Machine.start, Machine.start, Option.map_some, Option.map_some, hnormal]
      launch_eq := fun root settings store => by
        rw [Launch.of, Launch.of, Option.map_some, Option.map_some, hnormal]
      get?_eq := fun store => store.get?_congr h
      get?_set := fun store ds => by rw [Store.get?_set, if_pos h] }

/-- A path has the components of its normal form, which is its own normal form and has
nothing silent in its text. Paths are the same exactly when their normal forms are one text,
and exactly then they are one target. Normal forms are in a strict and total order, and
stores list their paths in it. -/
theorem normalize_is_canonical :
    (∀ p : Path, IsNormalFormOf p.normalize p) ∧
      (∀ p q : Path, Same p q ↔ p.normalize = q.normalize) ∧
      IsStrictTotalOrder NormalPath (fun p q => Precedes p.1 q.1) ∧
      (∀ ops, (Store.after ops).paths.Pairwise Precedes) ∧
      ∀ p q : Path, SharesKeys p q ↔ Same p q := by
  refine ⟨isNormalFormOf_normalize, fun _ _ => same_iff_normalize_eq, isStrictTotalOrder_precedes,
    fun ops => ?_, fun _ _ => sharesKeys_iff_same⟩
  exact List.pairwise_map.mpr (Store.isSorted_after ops)

/-- A leading `.` of a relative path is kept, and so is every `..`. -/
example : (ofString ".//a/./../b/.").normalize = ofString "./a/../b" := by decide +kernel

end DiagnosticRelay.Path
