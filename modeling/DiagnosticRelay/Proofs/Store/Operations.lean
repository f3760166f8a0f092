import DiagnosticRelay.Proofs.List.Last
import DiagnosticRelay.Proofs.Store.Sorted

/-!
# The store as a finite map

Whatever is done to a store that was empty at first, it is a finite map, from paths to
lists that are not empty. Paths that mean the same are one path to it, in whatever
spellings the operations name them, so what it maps a path to is decided by the last
operation on any spelling. The spelling that is listed is the one under which the entry
was brought in; entering other diagnostics under another spelling does not change it.

## Main definitions

* `Store.Op`, `Store.after`: operations, and the store after them.
* `Store.Gives`: the diagnostics that operations give a path.
* `Store.BringsIn`: the spelling under which operations bring an entry in.
* `Store.IsMapOf`: a store is the finite map of operations.

## Main results

* `get?_after_of_isLast`, `get?_after_of_forall`: entries after operations.
* `mem_paths_step_iff`, `mem_paths_after_iff`: listed spellings, by one operation and by all.
* `isMapOf_after`: stores are finite maps.
-/

namespace DiagnosticRelay.Store

variable {s : Store} {p q : Path} {ds : List Diagnostic}

/-! ## Operations -/

/-- An operation on a store. -/
inductive Op where
  | set (p : Path) (ds : List Diagnostic)
  | remove (p : Path)
  | clear

/-- A store after an operation. -/
def step (s : Store) : Op → Store
  | .set p ds => s.set p ds
  | .remove p => (s.remove p).1
  | .clear => s.clear.1

/-- The store after operations on an empty one. -/
def after (ops : List Op) : Store := ops.foldl step empty

/-- An operation is on a path, in some spelling. -/
def Op.IsOn (p : Path) : Op → Prop
  | .set q _ | .remove q => Path.Same q p
  | .clear => True

/-- The entry that an operation leaves of the paths that it is on. -/
def Op.left : Op → Option (List Diagnostic)
  | .set _ ds => if ds = [] then none else some ds
  | .remove _ | .clear => none

/-- The last of the operations that are on a path sets these diagnostics, and there are
some. -/
def Gives (ops : List Op) (p : Path) (ds : List Diagnostic) : Prop :=
  ds ≠ [] ∧ ∃ q, IsLast (Op.IsOn p) ops (.set q ds)

/-- An entry is brought in under a path in this very spelling: the path had no entry, and
has had one ever since. -/
def BringsIn (ops : List Op) (p : Path) : Prop :=
  ∃ earlier ds later, ops = earlier ++ .set p ds :: later ∧
    (after earlier).contains p = false ∧
    ∀ since, since <+: later → (after (earlier ++ .set p ds :: since)).contains p = true

variable {op : Op} {ops : List Op}

theorem after_concat (ops : List Op) (op : Op) : after (ops ++ [op]) = (after ops).step op := by
  rw [after, List.foldl_append]
  rfl

/-! ## Entries -/

theorem get?_step_of_isOn (h : op.IsOn p) : (s.step op).get? p = op.left := by
  cases op with
  | set q ds =>
    rw [step, get?_set]
    exact if_pos h
  | remove q =>
    rw [step, fst_remove, get?_erase]
    exact if_pos h
  | clear => rfl

theorem get?_step_of_not_isOn (h : ¬ op.IsOn p) : (s.step op).get? p = s.get? p := by
  cases op with
  | set q ds =>
    rw [step, get?_set]
    exact if_neg h
  | remove q =>
    rw [step, fst_remove, get?_erase]
    exact if_neg h
  | clear => exact absurd trivial h

theorem get?_after_of_forall (h : ∀ op ∈ ops, ¬ op.IsOn p) : (after ops).get? p = none := by
  induction ops using List.reverseRecOn with
  | nil => rfl
  | append_singleton ops op ih =>
    rw [after_concat, get?_step_of_not_isOn (h op (by simp))]
    exact ih fun other hother => h other (List.mem_append_left _ hother)

/-- The last operation on a path leaves its entry. -/
theorem get?_after_of_isLast (h : IsLast (Op.IsOn p) ops op) : (after ops).get? p = op.left := by
  obtain ⟨earlier, later, rfl, hop, hlater⟩ := h
  induction later using List.reverseRecOn with
  | nil => rw [after_concat, get?_step_of_isOn hop]
  | append_singleton later other ih =>
    rw [← List.cons_append, ← List.append_assoc, after_concat,
      get?_step_of_not_isOn (hlater other (by simp))]
    exact ih fun op hop => hlater op (List.mem_append_left _ hop)

theorem get?_after_eq_some_iff : (after ops).get? p = some ds ↔ Gives ops p ds := by
  constructor
  · intro h
    rcases exists_isLast_or_forall_not (Op.IsOn p) ops with ⟨op, hlast⟩ | hnone
    · rw [get?_after_of_isLast hlast] at h
      cases op with
      | set q es =>
        -- An empty list would have left nothing.
        rw [Op.left] at h
        split_ifs at h with hempty
        obtain rfl := Option.some.inj h
        exact ⟨hempty, q, hlast⟩
      | _ => cases h
    · rw [get?_after_of_forall hnone] at h
      cases h
  · rintro ⟨hne, q, hlast⟩
    rw [get?_after_of_isLast hlast]
    exact if_neg hne

/-! ## Order and spellings -/

theorem IsSorted.step (h : s.IsSorted) (op : Op) : (s.step op).IsSorted := by
  cases op with
  | set p ds => exact h.set
  | remove p => exact h.erase
  | clear => exact isSorted_empty

theorem isSorted_after (ops : List Op) : (after ops).IsSorted :=
  List.foldlRecOn ops _ isSorted_empty fun _ hs op _ => hs.step op

theorem contains_of_mem_paths (h : p ∈ s.paths) : s.contains p = true :=
  (s.exists_mem_paths_iff p).mp ⟨p, h, Path.Same.refl p⟩

theorem mem_paths_erase_iff : q ∈ (s.erase p).paths ↔ q ∈ s.paths ∧ ¬ Path.Same q p := by
  simp only [paths, erase, List.mem_map, List.mem_filter, decide_eq_true_eq]
  constructor
  · rintro ⟨e, ⟨he, hne⟩, rfl⟩
    exact ⟨⟨e, he, rfl⟩, hne⟩
  · rintro ⟨⟨e, he, rfl⟩, hne⟩
    exact ⟨e, ⟨he, hne⟩, rfl⟩

/-- Entering diagnostics lists the path if there was no entry, and otherwise leaves the
spellings that are listed. -/
theorem mem_map_insertEntry_iff {entries : List (Path × List Diagnostic)}
    (h : entries.Pairwise fun a b => Path.compare a.1 b.1 = .lt) :
    q ∈ (insertEntry p ds entries).map (·.1) ↔
      q ∈ entries.map (·.1) ∨ q = p ∧ ∀ e ∈ entries, ¬ Path.Same e.1 p := by
  induction entries with
  | nil => simp [insertEntry]
  | cons first rest ih =>
    obtain ⟨hfirst, hrest⟩ := List.pairwise_cons.mp h
    rw [insertEntry]
    split
    next hlt =>
      -- The path comes before all that is there.
      have hnone : ∀ e ∈ first :: rest, ¬ Path.Same e.1 p := by
        intro e he hsame
        have hbefore : Path.compare p e.1 = .lt := by
          rcases List.mem_cons.mp he with rfl | he
          · exact hlt
          · exact Std.TransCmp.lt_trans hlt (hfirst e he)
        rw [Path.compare_eq_eq_iff.mpr hsame.symm] at hbefore
        cases hbefore
      simp only [List.map_cons, List.mem_cons] at hnone ⊢
      tauto
    next heq =>
      have hsame : Path.Same first.1 p := (Path.compare_eq_eq_iff.mp heq).symm
      simp [hsame]
    next hgt =>
      have hne : ¬ Path.Same first.1 p := fun hsame => by
        rw [Path.compare_eq_eq_iff.mpr hsame.symm] at hgt
        cases hgt
      simp [ih hrest, hne, or_assoc]

/-- After an operation those are listed that have an entry, under the spelling that was
listed or, if the operation brings the entry in, under that of the operation. -/
theorem mem_paths_step_iff (h : s.IsSorted) : q ∈ (s.step op).paths ↔
    (s.step op).contains q = true ∧
      (q ∈ s.paths ∨ s.contains q = false ∧ ∃ ds, op = .set q ds) := by
  have hold : q ∈ s.paths → s.contains q = true := contains_of_mem_paths
  -- An entry that is taken out is not listed, and all others stay.
  have of_erase (p : Path) : q ∈ (s.erase p).paths ↔ (s.erase p).contains q = true ∧ q ∈ s.paths := by
    rw [mem_paths_erase_iff, contains_eq_isSome_get?, get?_erase]
    by_cases hsame : Path.Same p q
    · simp [hsame, hsame.symm]
    · have hne : ¬ Path.Same q p := fun h => hsame h.symm
      rw [if_neg hsame, ← contains_eq_isSome_get?]
      exact ⟨fun hq => ⟨hold hq.1, hq.1⟩, fun hq => ⟨hq.2, hne⟩⟩
  cases op with
  | set p ds =>
    by_cases hds : ds.isEmpty = true
    · have hset : s.set p ds = s.erase p := if_pos hds
      rw [step, hset, of_erase]
      refine and_congr_right fun hcontains => ⟨.inl, fun hor => hor.resolve_right ?_⟩
      rintro ⟨hnone, es, heq⟩
      obtain ⟨rfl, -⟩ := Op.set.inj heq
      rw [contains_eq_isSome_get?, get?_erase, if_pos (Path.Same.refl p)] at hcontains
      cases hcontains
    · have hset : s.set p ds = ⟨insertEntry p ds s.entries⟩ := if_neg hds
      have hlisted : q ∈ (s.set p ds).paths ↔ q ∈ s.paths ∨ q = p ∧ s.contains p = false := by
        rw [hset, paths, mem_map_insertEntry_iff h, paths]
        simp [contains]
      rw [step]
      constructor
      · intro hq
        refine ⟨contains_of_mem_paths hq, (hlisted.mp hq).imp_right ?_⟩
        rintro ⟨rfl, hnone⟩
        exact ⟨hnone, ds, rfl⟩
      · rintro ⟨-, hor⟩
        refine hlisted.mpr (hor.imp_right ?_)
        rintro ⟨hnone, es, heq⟩
        obtain ⟨rfl, -⟩ := Op.set.inj heq
        exact ⟨rfl, hnone⟩
  | remove p =>
    rw [step, fst_remove, of_erase]
    simp
  | clear => simp [step, paths, empty, contains]

/-- One more operation brings in what it enters anew, and keeps what has an entry still. -/
theorem bringsIn_concat_iff : BringsIn (ops ++ [op]) q ↔
    (after (ops ++ [op])).contains q = true ∧
      (BringsIn ops q ∨ (after ops).contains q = false ∧ ∃ ds, op = .set q ds) := by
  constructor
  · rintro ⟨earlier, ds, later, heq, hnone, hsince⟩
    rcases List.eq_nil_or_concat later with rfl | ⟨init, last, rfl⟩
    · obtain ⟨rfl, hop⟩ := List.append_inj' heq rfl
      obtain rfl := List.head_eq_of_cons_eq hop
      exact ⟨hsince [] List.nil_prefix, .inr ⟨hnone, ds, rfl⟩⟩
    · rw [List.concat_eq_append] at heq hsince
      have hlast : ops = earlier ++ .set q ds :: init ∧ [op] = [last] :=
        List.append_inj' (heq.trans (by simp)) rfl
      obtain rfl := hlast.1
      refine ⟨?_, .inl ⟨earlier, ds, init, rfl, hnone, fun since hinit => ?_⟩⟩
      · rw [heq]
        exact hsince _ List.prefix_rfl
      · exact hsince since (hinit.trans (List.prefix_append _ _))
  · rintro ⟨hcontains, ⟨earlier, ds, later, rfl, hnone, hsince⟩ | ⟨hnone, ds, rfl⟩⟩
    · refine ⟨earlier, ds, later ++ [op], by simp, hnone, fun since hinit => ?_⟩
      rcases List.prefix_concat_iff.mp hinit with rfl | hinit
      · simpa using hcontains
      · exact hsince since hinit
    · refine ⟨ops, ds, [], rfl, hnone, fun since hinit => ?_⟩
      rw [List.prefix_nil.mp hinit]
      exact hcontains

/-- What is listed is what was brought in. -/
theorem mem_paths_after_iff : q ∈ (after ops).paths ↔ BringsIn ops q := by
  induction ops using List.reverseRecOn with
  | nil => simp [after, paths, empty, BringsIn]
  | append_singleton ops op ih =>
    rw [bringsIn_concat_iff, ← ih, after_concat, mem_paths_step_iff (isSorted_after ops)]

/-! ## The finite map of operations -/

/-- What is promised of a store after operations. -/
structure IsMapOf (s : Store) (ops : List Op) : Prop where
  get?_eq_some_iff : ∀ p ds, s.get? p = some ds ↔ Gives ops p ds
  get?_ne_nil : ∀ p, s.get? p ≠ some []
  contains_iff : ∀ p, s.contains p = true ↔ (s.get? p).isSome = true
  remove_iff : ∀ p, (s.remove p).2 = true ↔ (s.get? p).isSome = true
  clear_iff : ∀ p, (∃ q ∈ s.clear.2, Path.Same q p) ↔ (s.get? p).isSome = true
  increasing : s.paths.Pairwise fun p q => Path.compare p q = .lt
  /-- Every path with an entry is listed in one spelling. -/
  existsUnique_spelling : ∀ p, (s.get? p).isSome = true → ∃! q, q ∈ s.paths ∧ Path.Same q p
  /-- It is the spelling under which the entry was brought in. -/
  mem_paths_iff : ∀ q, q ∈ s.paths ↔ BringsIn ops q
  clear_eq_paths : s.clear.2 = s.paths
  length_paths : s.paths.length = s.size
  paths_eq_nil_iff : s.paths = [] ↔ s.isEmpty = true

/-- After any operations the store is their finite map. -/
theorem isMapOf_after (ops : List Op) : (after ops).IsMapOf ops where
  get?_eq_some_iff _ _ := get?_after_eq_some_iff
  get?_ne_nil p h := (get?_after_eq_some_iff.mp h).1 rfl
  contains_iff p := by rw [contains_eq_isSome_get?]
  remove_iff p := by rw [snd_remove, contains_eq_isSome_get?]
  clear_iff p := by rw [snd_clear, exists_mem_paths_iff, contains_eq_isSome_get?]
  increasing := List.pairwise_map.mpr (isSorted_after ops)
  existsUnique_spelling p h := by
    rw [← contains_eq_isSome_get?, ← exists_mem_paths_iff] at h
    obtain ⟨q, hq, hsame⟩ := h
    refine ⟨q, ⟨hq, hsame⟩, ?_⟩
    rintro r ⟨hr, hsame'⟩
    obtain ⟨e, he, rfl⟩ := List.mem_map.mp hq
    obtain ⟨f, hf, rfl⟩ := List.mem_map.mp hr
    rw [(isSorted_after ops).eq_of_same hf he (hsame'.trans hsame.symm)]
  mem_paths_iff _ := mem_paths_after_iff
  clear_eq_paths := rfl
  length_paths := List.length_map _
  paths_eq_nil_iff := by rw [paths, List.map_eq_nil_iff, isEmpty, List.isEmpty_iff]

/-- The entry keeps the spelling under which it was brought in. -/
example :
    (after [.set (.ofString "/p/./a.php") [{ message := "m" }],
      .set (.ofString "/p/a.php") [{ message := "n" }]]).paths = [.ofString "/p/./a.php"] := by
  decide +kernel

end DiagnosticRelay.Store
