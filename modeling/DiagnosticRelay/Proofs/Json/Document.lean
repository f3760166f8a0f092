import DiagnosticRelay.Json.Document
import DiagnosticRelay.Proofs.Json.Number

/-!
# Values of documents

What holds of the scalars of a syntax tree holds of the scalars of its value. So the
integers in the value of a text are those that can be written, since the tree of a text
holds no others.

## Main definitions

* `Value.Throughout`: a property of a value and of all values in it.
* `Value.HasDistinctKeys`: no object in a value repeats a key.
* `Value.IsWritten`: the integers in a value are so by the way they are written.

## Main results

* `Node.skip_of_value`: what has a value can be passed over.
* `Document.isWritten_of_ofString`: values of texts are written.
-/

namespace DiagnosticRelay.Json

/-! ## Values -/

namespace Value

/-- A value has a property, and so have all the values in it. -/
inductive Throughout (P : Value → Prop) : Value → Prop where
  | scalar {s : Scalar} : P (.scalar s) → Throughout P (.scalar s)
  | array {items : List Value} : P (.array items) → (∀ v ∈ items, Throughout P v) →
    Throughout P (.array items)
  | object {members : List (String × Value)} : P (.object members) →
    (∀ m ∈ members, Throughout P m.2) → Throughout P (.object members)

/-- No object in a value repeats a key. -/
def HasDistinctKeys (v : Value) : Prop :=
  v.Throughout fun
    | .object members => (members.map (·.1)).Nodup
    | _ => True

end Value

/-- A scalar that is an integer is so by the way it is written. -/
def Scalar.IsWritten : Scalar → Prop
  | .number (.integer n) => ∃ literal, Number.IntegerLiteral literal n
  | _ => True

/-- The integers in a value are so by the way they are written. -/
def Value.IsWritten (v : Value) : Prop :=
  v.Throughout fun
    | .scalar s => s.IsWritten
    | _ => True

namespace Value

variable {P : Value → Prop} {v : Value} {vs : List Value} {ms : List (String × Value)}

theorem Throughout.here (h : v.Throughout P) : P v := by
  cases h with
  | scalar h => exact h
  | array h _ => exact h
  | object h _ => exact h

theorem Throughout.items (h : (Value.array vs).Throughout P) : ∀ v ∈ vs, v.Throughout P := by
  cases h with
  | array _ h => exact h

theorem Throughout.members (h : (Value.object ms).Throughout P) :
    ∀ m ∈ ms, m.2.Throughout P := by
  cases h with
  | object _ h => exact h

theorem hasDistinctKeys_scalar (s : Scalar) : (scalar s).HasDistinctKeys := .scalar trivial

theorem hasDistinctKeys_array_iff :
    (array vs).HasDistinctKeys ↔ ∀ v ∈ vs, v.HasDistinctKeys :=
  ⟨Throughout.items, .array trivial⟩

theorem hasDistinctKeys_object_iff :
    (object ms).HasDistinctKeys ↔ (ms.map (·.1)).Nodup ∧ ∀ m ∈ ms, m.2.HasDistinctKeys :=
  ⟨fun h => ⟨h.here, Throughout.members h⟩, fun h => .object h.1 h.2⟩

theorem HasDistinctKeys.nodup (h : (Value.object ms).HasDistinctKeys) : (ms.map (·.1)).Nodup :=
  Throughout.here h

/-- A value without repeated keys whose integers are written. -/
structure IsClear (v : Value) : Prop where
  distinct : v.HasDistinctKeys
  written : v.IsWritten

theorem IsClear.items (h : (Value.array vs).IsClear) : ∀ v ∈ vs, v.IsClear :=
  fun v hv => ⟨Throughout.items h.distinct v hv, Throughout.items h.written v hv⟩

theorem IsClear.members (h : (Value.object ms).IsClear) : ∀ m ∈ ms, m.2.IsClear :=
  fun m hm => ⟨Throughout.members h.distinct m hm, Throughout.members h.written m hm⟩

/-- Integers in written values are within bounds. -/
theorem IsWritten.bounds {n : Int} (h : (Value.int n).IsWritten) :
    -(2 ^ 63 : Int) ≤ n ∧ n < 2 ^ 64 := by
  obtain ⟨literal, hliteral⟩ := Throughout.here h
  exact hliteral.bounds

/-! ## Members -/

theorem lookup?_cons (key k : String) (v : Value) (ms : List (String × Value)) :
    lookup? key ((k, v) :: ms) = (lookup? key ms).or (if k = key then some v else none) := by
  rw [lookup?, lookup?, List.reverse_cons, List.find?_append]
  cases ms.reverse.find? (·.1 == key) with
  | some m => rfl
  | none => by_cases hk : k = key <;> simp [hk]

theorem lookup?_cons_of_ne {key k : String} (hne : k ≠ key) (v : Value)
    (ms : List (String × Value)) : lookup? key ((k, v) :: ms) = lookup? key ms := by
  rw [lookup?_cons, if_neg hne, Option.or_none]

theorem lookup?_eq_none {key : String} (h : key ∉ ms.map (·.1)) : lookup? key ms = none := by
  rw [lookup?, Option.map_eq_none_iff, List.find?_eq_none]
  intro m hm heq
  exact h (List.mem_map.mpr ⟨m, List.mem_reverse.mp hm, by simpa using heq⟩)

/-- The value of a key that is not repeated is that of its member. -/
theorem lookup?_eq_some_iff {key : String} (h : (ms.map (·.1)).Nodup) :
    lookup? key ms = some v ↔ (key, v) ∈ ms := by
  induction ms with
  | nil => simp [lookup?]
  | cons m rest ih =>
    obtain ⟨k, w⟩ := m
    obtain ⟨hk, hrest⟩ := List.nodup_cons.mp (List.map_cons ▸ h)
    by_cases hkey : k = key
    · subst hkey
      have hmem : (k, v) ∉ rest := fun hmem => hk (List.mem_map_of_mem (f := (·.1)) hmem)
      rw [lookup?_cons, lookup?_eq_none hk, if_pos rfl]
      simp [hmem, eq_comm]
    · have hne : (key, v) ≠ (k, w) := fun heq => hkey (congrArg Prod.fst heq).symm
      rw [lookup?_cons_of_ne hkey, ih hrest, List.mem_cons, or_iff_right hne]

/-- Where no key is repeated, the order of the members does not matter. -/
theorem lookup?_perm {key : String} {ns : List (String × Value)} (hnodup : (ms.map (·.1)).Nodup)
    (h : ms.Perm ns) : lookup? key ms = lookup? key ns := by
  have hnodup' : (ns.map (·.1)).Nodup := (h.map _).nodup_iff.mp hnodup
  refine Option.ext fun v => ?_
  rw [lookup?_eq_some_iff hnodup, lookup?_eq_some_iff hnodup', h.mem_iff]

/-- Members with other keys do not matter. -/
theorem lookup?_filter {key : String} {known : String → Bool} (h : known key = true)
    (ms : List (String × Value)) :
    lookup? key (ms.filter fun m => known m.1) = lookup? key ms := by
  induction ms with
  | nil => rfl
  | cons m rest ih =>
    obtain ⟨k, w⟩ := m
    cases hk : known k with
    | true => rw [List.filter_cons_of_pos (by simp [hk]), lookup?_cons, lookup?_cons, ih]
    | false =>
      have hne : k ≠ key := by
        rintro rfl
        exact Bool.false_ne_true (hk.symm.trans h)
      rw [List.filter_cons_of_neg (by simp [hk]), lookup?_cons_of_ne hne, ih]

end Value

/-! ## Values of trees -/

section Inversion

variable {depth start stop comma colon : Nat} {node : Node} {items next : Items}
  {members after : Members} {key : Except Fault String} {v : Value} {vs : List Value}
  {ms : List (String × Value)}

theorem Node.value_array_eq_ok_iff :
    (Node.array start items).value depth = .ok v ↔
      ∃ below vs, depth = below + 1 ∧ items.values below = .ok vs ∧ v = .array vs := by
  cases depth with
  | zero => simp [Node.value]
  | succ below =>
    rw [Node.value]
    cases hvalues : items.values below <;> simp [Except.map, hvalues, eq_comm]

theorem Node.value_object_eq_ok_iff :
    (Node.object start members).value depth = .ok v ↔
      ∃ below ms, depth = below + 1 ∧ members.values below = .ok ms ∧ v = .object ms := by
  cases depth with
  | zero => simp [Node.value]
  | succ below =>
    rw [Node.value]
    cases hvalues : members.values below <;> simp [Except.map, hvalues, eq_comm]

/-- What has a value is a scalar, a list or an object. -/
theorem Node.cases_of_value_eq_ok (h : node.value depth = .ok v) :
    (∃ s stop, node = .scalar s stop ∧ v = .scalar s) ∨
    (∃ start items below vs, node = .array start items ∧ depth = below + 1 ∧
      items.values below = .ok vs ∧ v = .array vs) ∨
    (∃ start members below ms, node = .object start members ∧ depth = below + 1 ∧
      members.values below = .ok ms ∧ v = .object ms) := by
  cases node with
  | scalar s stop => exact .inl ⟨s, stop, rfl, (Except.ok.inj h).symm⟩
  | unreadable => cases h
  | broken => cases h
  | array start items =>
    obtain ⟨below, vs, hdepth, hvs, hv⟩ := Node.value_array_eq_ok_iff.mp h
    exact .inr (.inl ⟨start, items, below, vs, rfl, hdepth, hvs, hv⟩)
  | object start members =>
    obtain ⟨below, ms, hdepth, hms, hv⟩ := Node.value_object_eq_ok_iff.mp h
    exact .inr (.inr ⟨start, members, below, ms, rfl, hdepth, hms, hv⟩)

theorem Items.values_item_eq_ok_iff :
    (Items.item start node next).values depth = .ok vs ↔
      ∃ v rest, node.value depth = .ok v ∧ next.values depth = .ok rest ∧ vs = v :: rest := by
  rw [Items.values]
  cases node.value depth <;> cases next.values depth <;>
    simp [bind, Except.bind, pure, Except.pure, eq_comm]

theorem Members.values_member_eq_ok_iff :
    (Members.member comma key colon node after).values depth = .ok ms ↔
      ∃ k v rest, key = .ok k ∧ node.value depth = .ok v ∧ after.values depth = .ok rest ∧
        ms = (k, v) :: rest := by
  rw [Members.values]
  cases key <;> cases node.value depth <;> cases after.values depth <;>
    simp [bind, Except.bind, pure, Except.pure, eq_comm]

theorem Members.values_lone_ne_ok {fault : Fault} {settled : Nat} :
    (Members.lone comma key fault settled).values depth ≠ .ok ms := by
  rw [Members.values]
  cases key <;> simp [bind, Except.bind, throw, throwThe, MonadExceptOf.throw]

/-- What has values is closed, or it is an item before such. -/
theorem Items.cases_of_values_eq_ok (h : items.values depth = .ok vs) :
    (∃ stop, items = .close stop ∧ vs = []) ∨
    (∃ start node next v rest, items = .item start node next ∧ node.value depth = .ok v ∧
      next.values depth = .ok rest ∧ vs = v :: rest) := by
  cases items with
  | close stop => exact .inl ⟨stop, rfl, (Except.ok.inj h).symm⟩
  | item start node next =>
    obtain ⟨v, rest, hv, hrest, hvs⟩ := Items.values_item_eq_ok_iff.mp h
    exact .inr ⟨start, node, next, v, rest, rfl, hv, hrest, hvs⟩
  | broken => cases h

/-- What has values is closed, or it is a member before such. -/
theorem Members.cases_of_values_eq_ok (h : members.values depth = .ok ms) :
    (∃ stop, members = .close stop ∧ ms = []) ∨
    (∃ comma k colon node next v rest, members = .member comma (.ok k) colon node next ∧
      node.value depth = .ok v ∧ next.values depth = .ok rest ∧ ms = (k, v) :: rest) := by
  cases members with
  | close stop => exact .inl ⟨stop, rfl, (Except.ok.inj h).symm⟩
  | member comma key colon node next =>
    obtain ⟨k, v, rest, rfl, hv, hrest, hms⟩ := Members.values_member_eq_ok_iff.mp h
    exact .inr ⟨comma, k, colon, node, next, v, rest, rfl, hv, hrest, hms⟩
  | lone => exact absurd h Members.values_lone_ne_ok
  | broken => cases h

/-- A document has the value of its tree, if nothing follows. -/
theorem Document.value_eq_ok_iff {d : Document} :
    d.value depth = .ok v ↔ d.root.value depth = .ok v ∧ d.trailing = none := by
  rw [Document.value]
  cases d.root.value depth <;> cases d.trailing <;>
    simp [bind, Except.bind, pure, Except.pure, throw, throwThe, MonadExceptOf.throw]

end Inversion

mutual

/-- What has a value can be passed over. -/
theorem Node.skip_of_value {depth : Nat} {v : Value} :
    ∀ {node : Node}, node.value depth = .ok v → node.skip = .ok ()
  | .scalar _ _, _ => rfl
  | .unreadable _, h => by cases h
  | .broken _ _, h => by cases h
  | .array _ items, h => by
    obtain ⟨below, vs, -, hitems, -⟩ := Node.value_array_eq_ok_iff.mp h
    exact Items.skip_of_values hitems
  | .object _ members, h => by
    obtain ⟨below, ms, -, hmembers, -⟩ := Node.value_object_eq_ok_iff.mp h
    exact Members.skip_of_values hmembers

theorem Items.skip_of_values {depth : Nat} {vs : List Value} :
    ∀ {items : Items}, items.values depth = .ok vs → items.skip = .ok ()
  | .close _, _ => rfl
  | .item _ value next, h => by
    obtain ⟨v, rest, hvalue, hnext, -⟩ := Items.values_item_eq_ok_iff.mp h
    rw [Items.skip, Node.skip_of_value hvalue, Items.skip_of_values hnext]
    rfl
  | .broken .., h => by cases h

theorem Members.skip_of_values {depth : Nat} {ms : List (String × Value)} :
    ∀ {members : Members}, members.values depth = .ok ms → members.skip = .ok ()
  | .close _, _ => rfl
  | .member _ _ _ value next, h => by
    obtain ⟨k, v, rest, -, hvalue, hnext, -⟩ := Members.values_member_eq_ok_iff.mp h
    rw [Members.skip, Node.skip_of_value hvalue, Members.skip_of_values hnext]
    rfl
  | .lone .., h => absurd h Members.values_lone_ne_ok
  | .broken .., h => by cases h

end

/-! ## Scalars of trees -/

mutual

/-- All scalars of a node have a property. -/
def Node.Scalars (P : Scalar → Prop) : Node → Prop
  | .scalar value _ => P value
  | .unreadable _ => True
  | .broken _ _ => True
  | .array _ items => items.Scalars P
  | .object _ members => members.Scalars P

/-- All scalars of items have a property. -/
def Items.Scalars (P : Scalar → Prop) : Items → Prop
  | .close _ => True
  | .item _ value next => value.Scalars P ∧ next.Scalars P
  | .broken .. => True

/-- All scalars of members have a property. -/
def Members.Scalars (P : Scalar → Prop) : Members → Prop
  | .close _ => True
  | .member _ _ _ value next => value.Scalars P ∧ next.Scalars P
  | .lone .. => True
  | .broken .. => True

end

mutual

/-- The scalars of the value of a node are those of the node. -/
theorem Node.isWritten_of_value {depth : Nat} {v : Value} :
    ∀ {node : Node}, node.Scalars Scalar.IsWritten → node.value depth = .ok v → v.IsWritten
  | .scalar value _, h, hv => by
    obtain rfl := Except.ok.inj hv
    exact .scalar h
  | .unreadable _, _, hv => by cases hv
  | .broken _ _, _, hv => by cases hv
  | .array _ items, h, hv => by
    obtain ⟨below, vs, -, hitems, rfl⟩ := Node.value_array_eq_ok_iff.mp hv
    exact .array trivial (Items.isWritten_of_values h hitems)
  | .object _ members, h, hv => by
    obtain ⟨below, ms, -, hmembers, rfl⟩ := Node.value_object_eq_ok_iff.mp hv
    exact .object trivial (Members.isWritten_of_values h hmembers)

theorem Items.isWritten_of_values {depth : Nat} {vs : List Value} :
    ∀ {items : Items}, items.Scalars Scalar.IsWritten → items.values depth = .ok vs →
      ∀ v ∈ vs, v.IsWritten
  | .close _, _, hvs => by
    obtain rfl := Except.ok.inj hvs
    exact List.forall_mem_nil _
  | .item _ value next, h, hvs => by
    obtain ⟨v, rest, hvalue, hnext, rfl⟩ := Items.values_item_eq_ok_iff.mp hvs
    exact List.forall_mem_cons.mpr
      ⟨Node.isWritten_of_value h.1 hvalue, Items.isWritten_of_values h.2 hnext⟩
  | .broken .., _, hvs => by cases hvs

theorem Members.isWritten_of_values {depth : Nat} {ms : List (String × Value)} :
    ∀ {members : Members}, members.Scalars Scalar.IsWritten → members.values depth = .ok ms →
      ∀ m ∈ ms, m.2.IsWritten
  | .close _, _, hms => by
    obtain rfl := Except.ok.inj hms
    exact List.forall_mem_nil _
  | .member _ _ _ value next, h, hms => by
    obtain ⟨k, v, rest, -, hvalue, hnext, rfl⟩ := Members.values_member_eq_ok_iff.mp hms
    exact List.forall_mem_cons.mpr
      ⟨Node.isWritten_of_value h.1 hvalue, Members.isWritten_of_values h.2 hnext⟩
  | .lone .., _, hms => absurd hms Members.values_lone_ne_ok
  | .broken .., _, hms => by cases hms

end

/-! ## Trees of texts -/

theorem scalars_growWord {P : Scalar → Prop} {value : Scalar} (h : P value) (offset : Nat)
    (word rest : List Char) : (growWord value offset word rest).tree.Scalars P := by
  induction word generalizing offset rest with
  | nil => exact h
  | cons c word ih =>
    cases rest with
    | nil => trivial
    | cons d rest =>
      rw [growWord]
      split_ifs
      · exact ih _ _
      · trivial

theorem scalars_growNumber (p : Place) : (growNumber p).tree.Scalars Scalar.IsWritten := by
  rw [growNumber]
  split
  next r hread =>
    -- The number is an integer if it is written as one.
    cases hvalue : r.value with
    | integer n =>
      have hr : Number.read p.offset p.rest = .ok ⟨.integer n, r.offset, r.rest⟩ := by
        rw [hread, ← hvalue]
      obtain ⟨literal, -, hliteral, -⟩ := Number.read_eq_integer_iff.mp hr
      exact ⟨literal, hliteral⟩
    | double value => trivial
  · trivial
  · trivial

theorem scalars_growString (p : Place) : (growString p).tree.Scalars Scalar.IsWritten := by
  rw [growString]
  split <;> trivial

mutual

/-- The scalars of a tree that is read off a text are written. -/
theorem scalars_growNode :
    ∀ (fuel : Nat) (p : Place), (growNode fuel p).tree.Scalars Scalar.IsWritten
  | 0, _ => trivial
  | fuel + 1, p => by
    rw [growNode]
    dsimp only
    split
    · trivial
    · exact scalars_growWord trivial ..
    · exact scalars_growWord trivial ..
    · exact scalars_growWord trivial ..
    · exact scalars_growString _
    · exact scalars_growItems fuel _ _
    · exact scalars_growMembers fuel _ _
    · split_ifs
      · exact scalars_growNumber _
      · trivial

theorem scalars_growItems :
    ∀ (fuel : Nat) (first : Bool) (p : Place),
      (growItems fuel first p).tree.Scalars Scalar.IsWritten
  | 0, _, _ => trivial
  | fuel + 1, first, p => by
    rw [growItems]
    dsimp only
    split
    · trivial
    · trivial
    · split_ifs
      · exact scalars_growItem fuel _
      · split
        · trivial
        · trivial
        · exact scalars_growItem fuel _
      · trivial

theorem scalars_growItem :
    ∀ (fuel : Nat) (p : Place), (growItem fuel p).tree.Scalars Scalar.IsWritten
  | 0, _ => trivial
  | fuel + 1, p => by
    rw [growItem]
    dsimp only
    split
    · exact ⟨scalars_growNode fuel _, trivial⟩
    · exact ⟨scalars_growNode fuel _, scalars_growItems fuel _ _⟩

theorem scalars_growMembers :
    ∀ (fuel : Nat) (first : Bool) (p : Place),
      (growMembers fuel first p).tree.Scalars Scalar.IsWritten
  | 0, _, _ => trivial
  | fuel + 1, first, p => by
    rw [growMembers]
    dsimp only
    split
    · trivial
    · trivial
    · split_ifs
      · exact scalars_growMember fuel _ _
      · trivial
      · split
        · trivial
        · exact scalars_growMember fuel _ _
        · trivial
        · trivial
      · trivial

theorem scalars_growMember :
    ∀ (fuel comma : Nat) (p : Place), (growMember fuel comma p).tree.Scalars Scalar.IsWritten
  | 0, _, _ => trivial
  | fuel + 1, comma, p => by
    rw [growMember]
    dsimp only
    split
    · trivial
    · split
      · split
        · exact ⟨scalars_growNode fuel _, trivial⟩
        · exact ⟨scalars_growNode fuel _, scalars_growMembers fuel _ _⟩
      · trivial
      · trivial

end

/-- The integers in the value of a text are written in it. -/
theorem Document.isWritten_of_ofString {text : String} {depth : Nat} {v : Value}
    (h : (Document.ofString text).value depth = .ok v) : v.IsWritten := by
  have hroot : (Document.ofString text).root.Scalars Scalar.IsWritten := by
    have hgrown := scalars_growNode (4 * text.length + 8) ⟨0, text.toList⟩
    rw [ofString]
    split
    · exact hgrown
    · dsimp only
      split <;> exact hgrown
  exact Node.isWritten_of_value hroot (Document.value_eq_ok_iff.mp h).1

end DiagnosticRelay.Json
