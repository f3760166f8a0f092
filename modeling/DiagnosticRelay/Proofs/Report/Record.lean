import DiagnosticRelay.Proofs.Json.Document
import DiagnosticRelay.Report.Reading
import Mathlib.Data.List.Nodup

/-!
# Records

A record is an object or a list of its fields in order. The fields of a record are read
one by one, in the order in which they stand in the text, and each of them changes a part
of the result that no other field touches. So the record that is read is the one whose
parts fit the values of their fields, whatever the order is, and what is absent keeps
what was there before.

## Main definitions

* `Value.IsRecord`, `Value.field?`: records and their fields.
* `Value.FieldOr`: an absent field stands for a default.
* `Report.Part`: what a field of a record means, and which part of the record it is.
* `Report.IsFitted`: the fields of a record mean its parts.

## Main results

* `Report.enterRecord_eq_ok_iff`: which record is read.
-/

namespace DiagnosticRelay

open Json (Value Node Items Members)

namespace Json.Value

/-- A value in the place of a record: an object, or a list of no more than its fields. -/
def IsRecord (keys : List String) : Value → Prop
  | .object _ => True
  | .array items => items.length ≤ keys.length
  | .scalar _ => False

/-- A field of a record: the value of its key, or the item in its place. -/
def field? (keys : List String) (key : String) : Value → Option Value
  | .object members => lookup? key members
  | .array items => items[keys.idxOf key]?
  | .scalar _ => none

/-- A field fits, or it is absent and stands for a default. -/
def FieldOr {α : Type} (default : α) (fits : Value → α → Prop) : Option Value → α → Prop
  | none, a => a = default
  | some v, a => fits v a

end Json.Value

namespace Report

/-! ## Parts of records -/

/-- A part of a record, with the key of its field and what values of the field fit. -/
structure Part (σ : Type) where
  key : String
  {α : Type}
  get : σ → α
  put : α → σ → σ
  fits : Value → α → Prop
  get_put : ∀ a record, get (put a record) = a

/-- A record is another one but for a part, which fits the value of its field; without a
value the part stays. -/
def Part.Holds {σ : Type} (p : Part σ) (record : σ) (v : Option Value) (entered : σ) : Prop :=
  Value.FieldOr (p.get record) p.fits v (p.get entered)

/-- Entering a field changes a part of a record into what fits. -/
structure Part.Describes {σ : Type} (p : Part σ) (field : Field σ) : Prop where
  key : field.key = p.key
  enter : ∀ {depth node v record entered}, node.value depth = .ok v → v.IsClear →
    (field.enter depth node record = .ok entered ↔ ∃ a, p.fits v a ∧ entered = p.put a record)

/-- The fields of a record mean its parts, which have keys of their own, do not touch each
other and are all of it. -/
structure IsFitted {σ : Type} (parts : List (Part σ)) (fields : List (Field σ)) : Prop where
  fields : List.Forall₂ Part.Describes parts fields
  nodup : (parts.map (·.key)).Nodup
  apart : ∀ p ∈ parts, ∀ q ∈ parts, q.key ≠ p.key →
    ∀ a record, q.get (p.put a record) = q.get record
  ext : ∀ a b : σ, (∀ p ∈ parts, p.get a = p.get b) → a = b

variable {σ : Type} {parts : List (Part σ)} {fields : List (Field σ)} {p q : Part σ}
  {record entered : σ} {a : p.α} {depth : Nat} {v : Value} {k : String}

theorem Part.holds_none : p.Holds record none entered ↔ p.get entered = p.get record := Iff.rfl

theorem Part.holds_some : p.Holds record (some v) entered ↔ p.fits v (p.get entered) := Iff.rfl

/-- A part holds in view of what the part was before. -/
theorem Part.holds_congr {other : σ} (h : p.get other = p.get record) (w : Option Value) :
    p.Holds other w entered ↔ p.Holds record w entered := by
  cases w with
  | none => rw [holds_none, holds_none, h]
  | some v => rw [holds_some, holds_some]

/-- A field is entered if its value fits, and what follows goes on from there. -/
theorem Part.Describes.exists_enter_iff {field : Field σ} (h : p.Describes field) {node : Node}
    (hv : node.value depth = .ok v) (hclear : v.IsClear) {P : σ → Prop} :
    (∃ entered, field.enter depth node record = .ok entered ∧ P entered) ↔
      ∃ a, p.fits v a ∧ P (p.put a record) := by
  simp only [h.enter hv hclear]
  exact ⟨fun ⟨_, ⟨a, ha, heq⟩, hP⟩ => ⟨a, ha, heq ▸ hP⟩, fun ⟨a, ha, hP⟩ => ⟨_, ⟨a, ha, rfl⟩, hP⟩⟩

/-- A field that is read and then put into its part is described by what is read. -/
theorem Part.describes_of_read {read : Nat → Node → Except Refusal p.α}
    (hread : ∀ {depth node v a}, node.value depth = .ok v → v.IsClear →
      (read depth node = .ok a ↔ p.fits v a)) :
    p.Describes ⟨p.key, fun depth node record => do return p.put (← read depth node) record⟩ where
  key := rfl
  enter := by
    intro depth node v record entered hv hclear
    simp only [← hread hv hclear]
    cases read depth node <;> simp [bind, Except.bind, pure, Except.pure, eq_comm]

/-! ## One field -/

/-- An unknown key is passed over. -/
theorem enterMembers_of_unknown (hnone : fields.find? (·.key == k) = none) {comma colon : Nat}
    {node : Node} {next : Members} (hv : node.value depth = .ok v) (seen : List String) :
    enterMembers depth fields (.member comma (.ok k) colon node next) seen record =
      enterMembers depth fields next seen record := by
  rw [enterMembers]
  simp only [hnone, Node.skip_of_value hv]

/-- A field that has not been there is entered, and the members after it are entered into
what comes of it. -/
theorem enterMembers_of_field {field : Field σ} (hfind : fields.find? (·.key == k) = some field)
    {seen : List String} (hseen : k ∉ seen) {comma colon : Nat} {node : Node} {next : Members} :
    enterMembers depth fields (.member comma (.ok k) colon node next) seen record = .ok entered ↔
      ∃ r, field.enter depth node record = .ok r ∧
        enterMembers depth fields next (k :: seen) r = .ok entered := by
  rw [enterMembers]
  simp only [hfind, if_neg hseen]
  cases field.enter depth node record <;> simp

/-- A field is entered with the item in its place, and the items after it are entered into
what comes of it. -/
theorem enterItems_cons_eq_ok_iff {field : Field σ} {entries : List (Field σ)} {start : Nat}
    {node : Node} {next : Items} :
    enterItems depth (field :: entries) (.item start node next) record = .ok entered ↔
      ∃ r, field.enter depth node record = .ok r ∧
        enterItems depth entries next r = .ok entered := by
  rw [enterItems]
  cases field.enter depth node record <;> simp

namespace IsFitted

theorem eq_of_key_eq (h : IsFitted parts fields) (hp : p ∈ parts) (hq : q ∈ parts)
    (hkey : q.key = p.key) : q = p :=
  List.inj_on_of_nodup_map h.nodup hq hp hkey

/-- Nothing is entered: the record stays. -/
theorem eq_iff (h : IsFitted parts fields) :
    (.ok record : Except Complaint σ) = .ok entered ↔ ∀ p ∈ parts, p.Holds record none entered := by
  rw [Except.ok.injEq]
  exact ⟨fun heq _ _ => by rw [Part.holds_none, heq], fun hall => (h.ext _ _ hall).symm⟩

/-- After a field has been entered, the other parts hold as if it had not, and its own part
is there to stay. -/
theorem exists_put_iff (h : IsFitted parts fields) (hp : p ∈ parts) {w : Part σ → Option Value}
    (hw : w p = none) :
    (∃ a, p.fits v a ∧ ∀ q ∈ parts, q.Holds (p.put a record) (w q) entered) ↔
      ∀ q ∈ parts, q.Holds record (if q.key = p.key then some v else w q) entered := by
  have hother (a : p.α) {q : Part σ} (hq : q ∈ parts) (hkey : q.key ≠ p.key) :
      q.Holds (p.put a record) (w q) entered ↔ q.Holds record (w q) entered :=
    Part.holds_congr (h.apart p hp q hq hkey a record) (w q)
  constructor
  · rintro ⟨a, ha, hall⟩ q hq
    split_ifs with hkey
    · obtain rfl := h.eq_of_key_eq hp hq hkey
      have hkept := hall q hq
      rw [hw, Part.holds_none, q.get_put] at hkept
      rwa [Part.holds_some, hkept]
    · exact (hother a hq hkey).mp (hall q hq)
  · intro hall
    have hfits := hall p hp
    rw [if_pos rfl, Part.holds_some] at hfits
    refine ⟨p.get entered, hfits, fun q hq => ?_⟩
    by_cases hkey : q.key = p.key
    · obtain rfl := h.eq_of_key_eq hp hq hkey
      rw [hw, Part.holds_none, q.get_put]
    · have hq' := hall q hq
      rw [if_neg hkey] at hq'
      exact (hother _ hq hkey).mpr hq'

/-- The part of a key. -/
theorem exists_part (h : IsFitted parts fields) {field : Field σ} (hfield : field ∈ fields) :
    ∃ p ∈ parts, p.Describes field := by
  obtain ⟨i, hi, rfl⟩ := List.getElem_of_mem hfield
  have hlength := h.fields.length_eq
  exact ⟨parts[i], List.getElem_mem _, List.forall₂_iff_get.mp h.fields |>.2 i (by omega) hi⟩

/-- A key of a part is a key of a field. -/
theorem exists_field (h : IsFitted parts fields) (hp : p ∈ parts) :
    ∃ field ∈ fields, field.key = p.key := by
  obtain ⟨i, hi, rfl⟩ := List.getElem_of_mem hp
  have hlength := h.fields.length_eq
  have hdescribes := List.forall₂_iff_get.mp h.fields |>.2 i hi (by omega)
  exact ⟨fields[i], List.getElem_mem _, hdescribes.key⟩

/-! ## Objects -/

/-- From the members of an object every part is read by its key. -/
theorem enterMembers_eq_ok_iff (h : IsFitted parts fields) {members : Members}
    {ms : List (String × Value)} {seen : List String} (hms : members.values depth = .ok ms)
    (hclear : ∀ m ∈ ms, m.2.IsClear) (hnodup : (ms.map (·.1)).Nodup)
    (hseen : ∀ m ∈ ms, m.1 ∉ seen) :
    enterMembers depth fields members seen record = .ok entered ↔
      ∀ p ∈ parts, p.Holds record (Value.lookup? p.key ms) entered := by
  induction ms generalizing members seen record with
  | nil =>
    obtain ⟨stop, rfl, -⟩ | ⟨_, _, _, _, _, _, _, -, -, -, hcons⟩ :=
      Members.cases_of_values_eq_ok hms
    · exact h.eq_iff
    · cases hcons
  | cons m ms ih =>
    obtain ⟨_, -, hnil⟩ | ⟨comma, k, colon, node, next, v, rest, rfl, hv, hrest, hcons⟩ :=
      Members.cases_of_values_eq_ok hms
    · cases hnil
    obtain ⟨rfl, rfl⟩ := List.cons.inj hcons
    rw [List.map_cons, List.nodup_cons] at hnodup
    obtain ⟨hvclear, hclear⟩ := List.forall_mem_cons.mp hclear
    obtain ⟨hkseen, hseen⟩ := List.forall_mem_cons.mp hseen
    cases hfind : fields.find? (·.key == k) with
    | none =>
      rw [enterMembers_of_unknown hfind hv, ih hrest hclear hnodup.2 hseen]
      refine forall₂_congr fun p hp => ?_
      obtain ⟨field, hfield, hkey⟩ := h.exists_field hp
      have hne : k ≠ p.key := fun heq =>
        List.find?_eq_none.mp hfind field hfield (by simp [hkey, heq])
      rw [Value.lookup?_cons_of_ne hne]
    | some field =>
      have hfieldkey : field.key = k := by simpa using List.find?_some hfind
      obtain ⟨p, hp, hdescribes⟩ := h.exists_part (List.mem_of_find?_eq_some hfind)
      have hpkey : p.key = k := hdescribes.key.symm.trans hfieldkey
      -- The members after this one do not repeat its key.
      have hrepeated : Value.lookup? k ms = none := Value.lookup?_eq_none hnodup.1
      have hunseen : ∀ m ∈ ms, m.1 ∉ k :: seen := fun m hm hmem => by
        rcases List.mem_cons.mp hmem with heq | hmem
        · exact hnodup.1 (List.mem_map.mpr ⟨m, hm, heq⟩)
        · exact hseen m hm hmem
      rw [enterMembers_of_field hfind hkseen, hdescribes.exists_enter_iff hv hvclear]
      simp only [ih hrest hclear hnodup.2 hunseen]
      rw [h.exists_put_iff hp (w := fun q => Value.lookup? q.key ms) (by rw [hpkey, hrepeated])]
      refine forall₂_congr fun q _ => ?_
      by_cases hkey : q.key = p.key
      · rw [if_pos hkey, Value.lookup?_cons, hkey, hpkey, hrepeated, if_pos rfl, Option.none_or]
      · have hne : k ≠ q.key := fun heq => hkey (heq.symm.trans hpkey.symm)
        rw [if_neg hkey, Value.lookup?_cons_of_ne hne]

/-! ## Lists -/

/-- From the items of a list the parts are read in order. -/
theorem enterItems_eq_ok_iff (h : IsFitted parts fields) {those : List (Part σ)}
    {entries : List (Field σ)} (hthose : ∀ p ∈ those, p ∈ parts)
    (hnodup : (those.map (·.key)).Nodup) (hentries : List.Forall₂ Part.Describes those entries)
    {items : Items} {vs : List Value} (hvs : items.values depth = .ok vs)
    (hclear : ∀ v ∈ vs, v.IsClear) :
    enterItems depth entries items record = .ok entered ↔
      vs.length ≤ those.length ∧
        ∀ p ∈ parts, p.Holds record vs[(those.map (·.key)).idxOf p.key]? entered := by
  induction hentries generalizing items vs record with
  | nil =>
    rw [enterItems]
    obtain ⟨stop, rfl, rfl⟩ | ⟨start, node, next, v, rest, rfl, -, -, rfl⟩ :=
      Items.cases_of_values_eq_ok hvs
    · simpa [itemsEnd] using h.eq_iff
    · simp [itemsEnd]
  | @cons p field those entries hdescribes _ ih =>
    rw [List.map_cons, List.nodup_cons] at hnodup
    obtain ⟨hp, hthose⟩ := List.forall_mem_cons.mp hthose
    obtain ⟨stop, rfl, rfl⟩ | ⟨start, node, next, v, rest, rfl, hv, hrest, rfl⟩ :=
      Items.cases_of_values_eq_ok hvs
    · rw [enterItems]
      simpa using h.eq_iff
    obtain ⟨hvclear, hclear⟩ := List.forall_mem_cons.mp hclear
    rw [enterItems_cons_eq_ok_iff, hdescribes.exists_enter_iff hv hvclear]
    simp only [ih hthose hnodup.2 hrest hclear]
    by_cases hle : rest.length ≤ those.length
    · -- The items after this one do not reach its part again.
      have hbeyond : rest[(those.map (·.key)).idxOf p.key]? = none := by
        rw [List.idxOf_eq_length hnodup.1, List.length_map]
        exact List.getElem?_eq_none hle
      have hcons : (v :: rest).length ≤ (p :: those).length := by simpa using hle
      simp only [hle, hcons, true_and]
      rw [h.exists_put_iff hp (w := fun q => rest[(those.map (·.key)).idxOf q.key]?) hbeyond]
      refine forall₂_congr fun q _ => ?_
      rw [List.map_cons]
      by_cases hkey : q.key = p.key
      · rw [if_pos hkey, hkey, List.idxOf_cons_self]
        rfl
      · rw [if_neg hkey, List.idxOf_cons_ne _ (Ne.symm hkey)]
        rfl
    · simp [hle]

/-! ## Records -/

/-- The record that is read is the one whose parts fit the values of their fields. -/
theorem enterRecord_eq_ok_iff (h : IsFitted parts fields) {wanted : String} {node : Node}
    (hv : node.value depth = .ok v) (hclear : v.IsClear) :
    enterRecord wanted fields depth node record = .ok entered ↔
      v.IsRecord (parts.map (·.key)) ∧
        ∀ p ∈ parts, p.Holds record (v.field? (parts.map (·.key)) p.key) entered := by
  obtain ⟨s, stop, rfl, rfl⟩ | ⟨start, items, below, vs, rfl, rfl, hvs, rfl⟩ |
    ⟨start, members, below, ms, rfl, rfl, hms, rfl⟩ := Node.cases_of_value_eq_ok hv
  · refine iff_of_false (by simp [enterRecord]) ?_
    rintro ⟨hrecord, -⟩
    exact hrecord
  · rw [enterRecord, h.enterItems_eq_ok_iff (fun _ hp => hp) h.nodup h.fields hvs hclear.items,
      Value.IsRecord, List.length_map]
    rfl
  · rw [enterRecord, h.enterMembers_eq_ok_iff hms hclear.members hclear.distinct.nodup (by simp)]
    exact ⟨fun hall => ⟨trivial, hall⟩, And.right⟩

end IsFitted

end Report

end DiagnosticRelay
