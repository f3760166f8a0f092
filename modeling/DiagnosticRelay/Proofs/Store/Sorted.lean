import DiagnosticRelay.Proofs.Store.Lookup
import Mathlib.Data.List.Nodup

/-!
# Stores in order

The entries of a store stand in the order of their paths, and every operation keeps
them there. So a store is the same whatever the order was in which entries of different
paths were set.

## Main definitions

* `Store.IsSorted`: the entries are in order.

## Main results

* `IsSorted.set`, `IsSorted.erase`: operations keep the order.
* `IsSorted.get?_eq_some_iff`: what is got for a path is in its entry.
* `IsSorted.set_comm`: entries of different paths are set in any order.
-/

namespace DiagnosticRelay.Store

variable {s : Store} {p q : Path} {ds es : List Diagnostic}
variable {entries : List (Path × List Diagnostic)}

/-- The entries stand in the order of their paths. -/
def IsSorted (s : Store) : Prop := s.entries.Pairwise fun a b => Path.compare a.1 b.1 = .lt

theorem isSorted_empty : empty.IsSorted := List.Pairwise.nil

theorem forall_mem_insertEntry {P : Path → Prop} (hp : P p) (h : ∀ e ∈ entries, P e.1) :
    ∀ e ∈ insertEntry p ds entries, P e.1 := by
  induction entries with
  | nil => simpa [insertEntry] using hp
  | cons first rest ih =>
    obtain ⟨hfirst, hrest⟩ := List.forall_mem_cons.mp h
    rw [insertEntry]
    split
    · exact List.forall_mem_cons.mpr ⟨hp, h⟩
    · exact List.forall_mem_cons.mpr ⟨hfirst, hrest⟩
    · exact List.forall_mem_cons.mpr ⟨hfirst, ih hrest⟩

theorem pairwise_insertEntry (h : entries.Pairwise fun a b => Path.compare a.1 b.1 = .lt) :
    (insertEntry p ds entries).Pairwise fun a b => Path.compare a.1 b.1 = .lt := by
  induction entries with
  | nil => simp [insertEntry]
  | cons first rest ih =>
    obtain ⟨hfirst, hrest⟩ := List.pairwise_cons.mp h
    rw [insertEntry]
    split
    next hlt =>
      refine List.pairwise_cons.mpr ⟨fun e he => ?_, h⟩
      rcases List.mem_cons.mp he with rfl | he
      · exact hlt
      · exact Std.TransCmp.lt_trans hlt (hfirst e he)
    · exact List.pairwise_cons.mpr ⟨hfirst, hrest⟩
    next hgt =>
      have hlt : Path.compare first.1 p = .lt := Std.OrientedCmp.lt_of_gt hgt
      refine List.pairwise_cons.mpr ⟨?_, ih hrest⟩
      exact forall_mem_insertEntry (P := fun q => Path.compare first.1 q = .lt) hlt hfirst

/-- Every path has one entry at most. -/
theorem IsSorted.eq_of_same (h : s.IsSorted) {a b : Path × List Diagnostic} (ha : a ∈ s.entries)
    (hb : b ∈ s.entries) (hsame : Path.Same a.1 b.1) : a = b := by
  have hnodup : (s.entries.map fun e => e.1.components).Nodup := by
    refine List.pairwise_map.mpr (List.Pairwise.imp (fun {e f} hlt heq => ?_) h)
    rw [Path.compare_eq_eq_iff.mpr heq] at hlt
    cases hlt
  exact List.inj_on_of_nodup_map hnodup ha hb hsame

/-- What is got for a path stands in the one entry that the path has. -/
theorem IsSorted.get?_eq_some_iff (h : s.IsSorted) :
    s.get? p = some ds ↔ ∃ q, (q, ds) ∈ s.entries ∧ Path.Same q p := by
  rw [get?, Option.map_eq_some_iff]
  constructor
  · rintro ⟨⟨q, es⟩, hfind, rfl⟩
    exact ⟨q, List.mem_of_find?_eq_some hfind, by simpa using List.find?_some hfind⟩
  · rintro ⟨q, hq, hsame⟩
    have hsome : (s.entries.find? fun entry => Path.Same entry.1 p).isSome = true :=
      List.find?_isSome.mpr ⟨(q, ds), hq, by simpa using hsame⟩
    obtain ⟨e, hfind⟩ := Option.isSome_iff_exists.mp hsome
    have he : Path.Same e.1 p := by simpa using List.find?_some hfind
    obtain rfl := h.eq_of_same (List.mem_of_find?_eq_some hfind) hq (he.trans hsame.symm)
    exact ⟨(q, ds), hfind, rfl⟩

theorem IsSorted.erase (h : s.IsSorted) : (s.erase p).IsSorted := List.Pairwise.filter _ h

theorem IsSorted.set (h : s.IsSorted) : (s.set p ds).IsSorted := by
  rw [Store.set]
  split_ifs
  · exact h.erase
  · exact pairwise_insertEntry h

/-- Entering in front of everything that is there. -/
theorem insertEntry_of_forall_lt (h : ∀ e ∈ entries, Path.compare p e.1 = .lt) :
    insertEntry p ds entries = (p, ds) :: entries := by
  cases entries with
  | nil => rfl
  | cons first rest => rw [insertEntry, h first List.mem_cons_self]

theorem insertEntry_comm_of_lt (h : Path.compare p q = .lt) :
    insertEntry q es (insertEntry p ds entries) = insertEntry p ds (insertEntry q es entries) := by
  have hgt : Path.compare q p = .gt := Std.OrientedCmp.gt_of_lt h
  induction entries with
  | nil => simp [insertEntry, h, hgt]
  | cons first rest ih =>
    cases hp : Path.compare p first.1 with
    | lt => cases hq : Path.compare q first.1 <;> simp [insertEntry, hp, hq, h, hgt]
    | eq =>
      have hq : Path.compare q first.1 = .gt := by
        rw [← Std.TransCmp.congr_right hp]
        exact hgt
      simp [insertEntry, hp, hq]
    | gt =>
      have hq : Path.compare q first.1 = .gt := Std.TransCmp.gt_trans hgt hp
      simp [insertEntry, hp, hq, ih]

theorem insertEntry_comm (h : ¬ Path.Same p q) :
    insertEntry q es (insertEntry p ds entries) = insertEntry p ds (insertEntry q es entries) := by
  cases hpq : Path.compare p q with
  | lt => exact insertEntry_comm_of_lt hpq
  | eq => exact absurd (Path.compare_eq_eq_iff.mp hpq) h
  | gt => exact (insertEntry_comm_of_lt (Std.OrientedCmp.lt_of_gt hpq)).symm

theorem filter_insertEntry (h : entries.Pairwise fun a b => Path.compare a.1 b.1 = .lt)
    (hne : ¬ Path.Same p q) :
    (insertEntry p ds entries).filter (fun e => ¬ Path.Same e.1 q) =
      insertEntry p ds (entries.filter fun e => ¬ Path.Same e.1 q) := by
  induction entries with
  | nil => simp [insertEntry, hne]
  | cons first rest ih =>
    obtain ⟨hfirst, hrest⟩ := List.pairwise_cons.mp h
    rw [insertEntry]
    split
    next hlt =>
      -- All entries are behind the path, those that are left included.
      have hall : ∀ e ∈ first :: rest, Path.compare p e.1 = .lt :=
        List.forall_mem_cons.mpr ⟨hlt, fun e he => Std.TransCmp.lt_trans hlt (hfirst e he)⟩
      rw [insertEntry_of_forall_lt fun e he => hall e (List.mem_of_mem_filter he)]
      simp [hne]
    next heq =>
      have hkept : ¬ Path.Same first.1 q := fun hsame =>
        hne ((Path.compare_eq_eq_iff.mp heq).trans hsame)
      simp [hkept, insertEntry, heq]
    next hgt =>
      by_cases hsame : Path.Same first.1 q
      · simpa [hsame] using ih hrest
      · simpa [hsame, insertEntry, hgt] using ih hrest

theorem IsSorted.erase_set (h : s.IsSorted) (hne : ¬ Path.Same p q) :
    (s.set p ds).erase q = (s.erase q).set p ds := by
  rw [Store.set, Store.set]
  split_ifs
  · simp [Store.erase, List.filter_filter, Bool.and_comm]
  · rw [Store.erase, filter_insertEntry h hne]
    rfl

/-- Entries of different paths are set in any order. -/
theorem IsSorted.set_comm (h : s.IsSorted) (hne : ¬ Path.Same p q) :
    (s.set p ds).set q es = (s.set q es).set p ds := by
  by_cases hes : es.isEmpty
  · have hset (t : Store) : t.set q es = t.erase q := if_pos hes
    rw [hset, hset, h.erase_set hne]
  · by_cases hds : ds.isEmpty
    · have hset (t : Store) : t.set p ds = t.erase p := if_pos hds
      rw [hset, hset, h.erase_set fun hsame => hne hsame.symm]
    · simp only [Store.set, hds, hes, if_false, Bool.false_eq_true]
      exact congrArg Store.mk (insertEntry_comm hne)

end DiagnosticRelay.Store
