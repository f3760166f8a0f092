import DiagnosticRelay.Proofs.Except.Ok
import DiagnosticRelay.Proofs.Json.Document
import DiagnosticRelay.Settings.Overlay
import Mathlib.Tactic.Common

/-!
# Settings under values of an editor

A value that an editor sends is laid over settings: where the value gives a text it wins,
everywhere else the settings stay. Only what the value gives for the four settings counts,
whether it is an object or a list. So of two values that are laid over settings one after
the other the second one wins, and together they are one value.

## Main definitions

* `Setting`: the settings by name, with their keys and places.
* `Value.IsOfSettings`: the values that are accepted.
* `Value.text?`: the text that a value gives for a setting.
* `Settings.IsOverlay`: what is promised of laying values over settings.

## Main results

* `Overlay.ofValue_eq_ok_iff`: the overlays that are read.
* `Settings.withValue_eq_ok_iff`: settings under a value.
* `Settings.isOverlay_withValue`: values are laid over settings.
-/

namespace DiagnosticRelay

open Json (Value Misfit)

/-! ## Settings by name -/

/-- A setting. -/
inductive Setting where
  | phpCommand
  | command
  | watchGlob
  | dockerVolumePath
  deriving DecidableEq

namespace Setting

/-- The key of a setting in an object. -/
def key : Setting → String
  | .phpCommand => "phpCommand"
  | .command => "command"
  | .watchGlob => "watchGlob"
  | .dockerVolumePath => "dockerVolumePath"

/-- The place of a setting in a list. -/
def place : Setting → Nat
  | .phpCommand => 0
  | .command => 1
  | .watchGlob => 2
  | .dockerVolumePath => 3

/-- Whether a key is that of a setting. -/
def isKey (k : String) : Bool :=
  k == key .phpCommand || k == key .command || k == key .watchGlob || k == key .dockerVolumePath

theorem isKey_key (x : Setting) : isKey x.key = true := by
  cases x <;> decide

/-- What holds of all settings holds of each of the four. -/
theorem forall_iff {P : Setting → Prop} :
    (∀ x, P x) ↔ P .phpCommand ∧ P .command ∧ P .watchGlob ∧ P .dockerVolumePath :=
  ⟨fun h => ⟨h _, h _, h _, h _⟩, fun ⟨hphp, hcommand, hglob, hvolume⟩ x => by
    cases x <;> assumption⟩

theorem exists_place_eq {i : Nat} (h : i < 4) : ∃ x : Setting, x.place = i := by
  match i with
  | 0 => exact ⟨.phpCommand, rfl⟩
  | 1 => exact ⟨.command, rfl⟩
  | 2 => exact ⟨.watchGlob, rfl⟩
  | 3 => exact ⟨.dockerVolumePath, rfl⟩

end Setting

/-- The text of a setting. -/
def Settings.text (s : Settings) : Setting → String
  | .phpCommand => s.phpCommand
  | .command => s.command
  | .watchGlob => s.watchGlob
  | .dockerVolumePath => s.dockerVolumePath

/-- The text that an overlay gives for a setting. -/
def Overlay.text? (o : Overlay) : Setting → Option String
  | .phpCommand => o.phpCommand
  | .command => o.command
  | .watchGlob => o.watchGlob
  | .dockerVolumePath => o.dockerVolumePath

/-- The overlay with given texts. -/
def Overlay.ofTexts (given : Setting → Option String) : Overlay where
  phpCommand := given .phpCommand
  command := given .command
  watchGlob := given .watchGlob
  dockerVolumePath := given .dockerVolumePath

@[simp] theorem Overlay.text?_ofTexts (given : Setting → Option String) (x : Setting) :
    (Overlay.ofTexts given).text? x = given x := by
  cases x <;> rfl

/-- Overlays are the same if they give the same texts. -/
theorem Overlay.ext_text {o p : Overlay} (h : ∀ x, o.text? x = p.text? x) : o = p :=
  congrArg Overlay.ofTexts (funext h)

/-- Where an overlay gives a text it wins. -/
@[simp] theorem Settings.text_overlay (s : Settings) (o : Overlay) (x : Setting) :
    (s.overlay o).text x = (o.text? x).getD (s.text x) := by
  cases x <;> rfl

/-- Settings are the same if all their texts are. -/
theorem Settings.ext_text {s t : Settings} (h : ∀ x, s.text x = t.text x) : s = t :=
  congrArg (fun text : Setting → String =>
    ({} : Settings).overlay (.ofTexts fun x => some (text x))) (funext h)

/-! ## Values -/

namespace Json.Value

/-- A text, or `null`. -/
def IsTextOrNull (v : Value) : Prop := v = .null ∨ ∃ text, v = .string text

/-- The values that are accepted: `null`, an object that has texts or `null` under the keys
of settings, and a list of at most four texts or `null`s. -/
inductive IsOfSettings : Value → Prop where
  | null : IsOfSettings .null
  | object {members : List (String × Value)}
    (known : ∀ (x : Setting) v, lookup? x.key members = some v → v.IsTextOrNull) :
    IsOfSettings (.object members)
  | array {items : List Value} (short : items.length ≤ 4)
    (known : ∀ v ∈ items, v.IsTextOrNull) : IsOfSettings (.array items)

/-- What a value has for a setting: the value of its key, or the item in its place. -/
def heldAt? (x : Setting) : Value → Option Value
  | .object members => lookup? x.key members
  | .array items => items[x.place]?
  | .scalar _ => none

/-- The text that a value gives for a setting. -/
def text? (v : Value) (x : Setting) : Option String := (v.heldAt? x).bind string?

/-- The object that gives texts. -/
def ofTexts (given : Setting → Option String) : Value :=
  .object [(Setting.phpCommand.key, optionalString (given .phpCommand)),
    (Setting.command.key, optionalString (given .command)),
    (Setting.watchGlob.key, optionalString (given .watchGlob)),
    (Setting.dockerVolumePath.key, optionalString (given .dockerVolumePath))]

variable {v w : Value} {items : List Value}

theorem isTextOrNull_optionalString (text : Option String) :
    (optionalString text).IsTextOrNull := by
  cases text with
  | none => exact .inl rfl
  | some text => exact .inr ⟨text, rfl⟩

theorem string?_optionalString (text : Option String) : (optionalString text).string? = text := by
  cases text <;> rfl

theorem heldAt?_ofTexts (given : Setting → Option String) (x : Setting) :
    (ofTexts given).heldAt? x = some (optionalString (given x)) := by
  cases x <;> rfl

/-- Any texts are given by some value. -/
theorem text?_ofTexts (given : Setting → Option String) (x : Setting) :
    (ofTexts given).text? x = given x := by
  rw [text?, heldAt?_ofTexts, Option.bind_some, string?_optionalString]

theorem isOfSettings_ofTexts (given : Setting → Option String) : (ofTexts given).IsOfSettings := by
  refine .object fun x v hv => ?_
  obtain rfl := Option.some.inj ((heldAt?_ofTexts given x).symm.trans hv)
  exact isTextOrNull_optionalString _

/-- A short list holds texts and `null`s if it has them in the places of settings. -/
theorem forall_mem_iff_forall_place (hshort : items.length ≤ 4) {P : Value → Prop} :
    (∀ v ∈ items, P v) ↔ ∀ (x : Setting) v, items[x.place]? = some v → P v := by
  constructor
  · intro h x v hv
    exact h v (List.mem_of_getElem? hv)
  · intro h v hv
    obtain ⟨i, hi, rfl⟩ := List.mem_iff_getElem.mp hv
    obtain ⟨x, rfl⟩ := Setting.exists_place_eq (lt_of_lt_of_le hi hshort)
    exact h x _ (List.getElem?_eq_getElem hi)

end Json.Value

/-! ## The overlay of a value -/

namespace Overlay

variable {o : Overlay} {w : Option Value} {text : Option String}

/-- What is in the place of a setting is read if it is a text or `null`. -/
theorem setting_eq_ok_iff : setting w = .ok text ↔
    (∀ v, w = some v → v.IsTextOrNull) ∧ text = w.bind Value.string? := by
  rcases w with _ | (_ | _ | _ | _) | _ | _ <;>
    simp [setting, Value.IsTextOrNull, Value.null, Value.string, Value.string?, eq_comm]

theorem ofMembers_eq_ok_iff {members : List (String × Value)} : ofMembers members = .ok o ↔
    ∀ x : Setting, setting (Value.lookup? x.key members) = .ok (o.text? x) := by
  constructor
  · intro h
    obtain ⟨command, hcommand, h⟩ := exists_of_bind_eq_ok h
    obtain ⟨volume, hvolume, h⟩ := exists_of_bind_eq_ok h
    obtain ⟨php, hphp, h⟩ := exists_of_bind_eq_ok h
    obtain ⟨glob, hglob, h⟩ := exists_of_bind_eq_ok h
    obtain rfl := Except.ok.inj h
    exact Setting.forall_iff.mpr ⟨hphp, hcommand, hglob, hvolume⟩
  · intro h
    obtain ⟨hphp, hcommand, hglob, hvolume⟩ := Setting.forall_iff.mp h
    simp only [Setting.key] at hphp hcommand hglob hvolume
    rw [ofMembers, hcommand, hvolume, hphp, hglob]
    rfl

theorem ofItems_eq_ok_iff {items : List Value} : ofItems items = .ok o ↔
    items.length ≤ 4 ∧ ∀ x : Setting, setting items[x.place]? = .ok (o.text? x) := by
  constructor
  · intro h
    obtain ⟨php, hphp, h⟩ := exists_of_bind_eq_ok h
    obtain ⟨command, hcommand, h⟩ := exists_of_bind_eq_ok h
    obtain ⟨glob, hglob, h⟩ := exists_of_bind_eq_ok h
    obtain ⟨volume, hvolume, h⟩ := exists_of_bind_eq_ok h
    by_cases hlong : 4 < items.length
    · rw [if_pos hlong] at h
      cases h
    · rw [if_neg hlong] at h
      obtain rfl := Except.ok.inj h
      exact ⟨Nat.le_of_not_lt hlong, Setting.forall_iff.mpr ⟨hphp, hcommand, hglob, hvolume⟩⟩
  · rintro ⟨hshort, h⟩
    obtain ⟨hphp, hcommand, hglob, hvolume⟩ := Setting.forall_iff.mp h
    simp only [Setting.place] at hphp hcommand hglob hvolume
    rw [ofItems, hcommand, hvolume, hphp, hglob]
    simp only [if_neg (Nat.not_lt.mpr hshort)]
    rfl

/-- An overlay is read from the values that are accepted, and it gives what they give. -/
theorem ofValue_eq_ok_iff {v : Value} :
    ofValue v = .ok o ↔ v.IsOfSettings ∧ ∀ x, o.text? x = v.text? x := by
  cases v with
  | scalar s =>
    constructor
    · intro h
      cases s with
      | null =>
        obtain rfl := Except.ok.inj h
        exact ⟨.null, fun x => by cases x <;> rfl⟩
      | _ => cases h
    · rintro ⟨⟨⟩, h⟩
      exact congrArg Except.ok (ext_text fun x => (h x).symm ▸ by cases x <;> rfl)
  | array items =>
    rw [ofValue, ofItems_eq_ok_iff]
    simp only [setting_eq_ok_iff, forall_and]
    constructor
    · rintro ⟨hshort, hknown, htext⟩
      exact ⟨.array hshort ((Value.forall_mem_iff_forall_place hshort).mpr hknown), htext⟩
    · rintro ⟨_ | _ | ⟨hshort, hknown⟩, htext⟩
      exact ⟨hshort, (Value.forall_mem_iff_forall_place hshort).mp hknown, htext⟩
  | object members =>
    rw [ofValue, ofMembers_eq_ok_iff]
    simp only [setting_eq_ok_iff, forall_and]
    constructor
    · rintro ⟨hknown, htext⟩
      exact ⟨.object hknown, htext⟩
    · rintro ⟨_ | ⟨hknown⟩, htext⟩
      exact ⟨hknown, htext⟩

theorem exists_ofValue_eq_ok {v : Value} (h : v.IsOfSettings) : ∃ o, ofValue v = .ok o :=
  ⟨ofTexts v.text?, ofValue_eq_ok_iff.mpr ⟨h, text?_ofTexts _⟩⟩

end Overlay

/-! ## Settings under values -/

namespace Settings

variable {s t : Settings} {u v w : Value}

/-- Settings under an accepted value have its texts where it gives any, and stay the same
everywhere else. -/
theorem withValue_eq_ok_iff : s.withValue v = .ok t ↔
    v.IsOfSettings ∧ ∀ x, t.text x = (v.text? x).getD (s.text x) := by
  constructor
  · intro h
    rw [withValue] at h
    cases ho : Overlay.ofValue v with
    | error m =>
      rw [ho] at h
      cases h
    | ok o =>
      rw [ho] at h
      obtain rfl := Except.ok.inj h
      obtain ⟨hv, htext⟩ := Overlay.ofValue_eq_ok_iff.mp ho
      exact ⟨hv, fun x => by rw [text_overlay, htext]⟩
  · rintro ⟨hv, htext⟩
    obtain ⟨o, ho⟩ := Overlay.exists_ofValue_eq_ok hv
    have hgiven := (Overlay.ofValue_eq_ok_iff.mp ho).2
    have ht : t = s.overlay o := ext_text fun x => by rw [htext, text_overlay, hgiven]
    rw [withValue, ho, ht]
    rfl

theorem exists_withValue_eq_ok (s : Settings) (h : v.IsOfSettings) :
    ∃ t, s.withValue v = .ok t ∧ ∀ x, t.text x = (v.text? x).getD (s.text x) := by
  obtain ⟨o, ho⟩ := Overlay.exists_ofValue_eq_ok h
  have hs : s.withValue v = .ok (s.overlay o) := by
    rw [withValue, ho]
    rfl
  exact ⟨_, hs, (withValue_eq_ok_iff.mp hs).2⟩

/-- Objects with the same values under the keys of settings do the same. -/
theorem withValue_object_congr {members others : List (String × Value)}
    (h : ∀ x : Setting, Value.lookup? x.key members = Value.lookup? x.key others) :
    s.withValue (.object members) = s.withValue (.object others) := by
  obtain ⟨hphp, hcommand, hglob, hvolume⟩ := Setting.forall_iff.mp h
  simp only [Setting.key] at hphp hcommand hglob hvolume
  rw [withValue, withValue, Overlay.ofValue, Overlay.ofValue, Overlay.ofMembers, Overlay.ofMembers,
    hphp, hcommand, hglob, hvolume]

/-- Two accepted values, one after the other, are one value that gives the text of the
second one where that gives any, and else the text of the first one. -/
theorem withValue_withValue (s : Settings) (hv : v.IsOfSettings) (hw : w.IsOfSettings)
    (hu : u.IsOfSettings) (h : ∀ x, u.text? x = (w.text? x).or (v.text? x)) :
    (s.withValue v >>= fun t => t.withValue w) = s.withValue u := by
  obtain ⟨first, hfirst, hfirsttext⟩ := exists_withValue_eq_ok s hv
  obtain ⟨second, hsecond, hsecondtext⟩ := exists_withValue_eq_ok first hw
  have hone : s.withValue u = .ok second := by
    refine withValue_eq_ok_iff.mpr ⟨hu, fun x => ?_⟩
    rw [hsecondtext, hfirsttext, h]
    cases w.text? x <;> rfl
  -- Both values are accepted, so the first step has settings for the second one.
  rw [hone, hfirst]
  exact hsecond

/-- What is promised of a way to lay values over settings. -/
structure IsOverlay (apply : Settings → Value → Except Misfit Settings) : Prop where
  accepts_iff : ∀ s v, (∃ t, apply s v = .ok t) ↔ v.IsOfSettings
  text_eq : ∀ s v t, apply s v = .ok t → ∀ x, t.text x = (v.text? x).getD (s.text x)
  /-- Members with unknown keys do not matter. -/
  filter_known : ∀ s members, apply s (.object (members.filter fun m => Setting.isKey m.1)) =
    apply s (.object members)
  /-- Nor does the order of the members. -/
  perm : ∀ s members others, (members.map (·.1)).Nodup → members.Perm others →
    apply s (.object members) = apply s (.object others)
  /-- Two values, one after the other, are one value, and there is such a value. -/
  comp : ∀ v w : Value, v.IsOfSettings → w.IsOfSettings →
    (∃ u : Value, u.IsOfSettings ∧ ∀ x, u.text? x = (w.text? x).or (v.text? x)) ∧
    ∀ u : Value, u.IsOfSettings → (∀ x, u.text? x = (w.text? x).or (v.text? x)) →
      ∀ s, (apply s v >>= fun t => apply t w) = apply s u
  idempotent : ∀ s v, (apply s v >>= fun t => apply t v) = apply s v
  null : ∀ s, apply s .null = .ok s
  /-- Values that give different settings may change places. -/
  comm : ∀ v w : Value, v.IsOfSettings → w.IsOfSettings →
    (∀ x, v.text? x = none ∨ w.text? x = none) →
    ∀ s, (apply s v >>= fun t => apply t w) = (apply s w >>= fun t => apply t v)

/-- Values of an editor are laid over settings. -/
theorem isOverlay_withValue : IsOverlay withValue where
  accepts_iff s v := by
    constructor
    · rintro ⟨t, ht⟩
      exact (withValue_eq_ok_iff.mp ht).1
    · intro hv
      obtain ⟨t, ht, -⟩ := exists_withValue_eq_ok s hv
      exact ⟨t, ht⟩
  text_eq s v t ht := (withValue_eq_ok_iff.mp ht).2
  filter_known s members :=
    withValue_object_congr fun x => Value.lookup?_filter (Setting.isKey_key x) members
  perm s members others hnodup hperm :=
    withValue_object_congr fun x => Value.lookup?_perm hnodup hperm
  comp v w hv hw := by
    refine ⟨⟨.ofTexts fun x => (w.text? x).or (v.text? x), ?_, ?_⟩, ?_⟩
    · exact Value.isOfSettings_ofTexts _
    · exact Value.text?_ofTexts _
    · exact fun u hu h s => withValue_withValue s hv hw hu h
  idempotent s v := by
    cases ht : s.withValue v with
    | error m => rfl
    | ok t =>
      -- What is accepted once is accepted again, since that does not depend on the settings.
      have hv := (withValue_eq_ok_iff.mp ht).1
      have htwice := withValue_withValue s hv hv hv fun x => (Option.or_self).symm
      rw [ht] at htwice
      exact htwice
  null s := withValue_eq_ok_iff.mpr ⟨.null, fun _ => rfl⟩
  comm v w hv hw hapart s := by
    -- Both orders come to the value that gives what either gives.
    let both : Value := .ofTexts fun x => (w.text? x).or (v.text? x)
    have hboth : both.IsOfSettings := Value.isOfSettings_ofTexts _
    have htexts (x : Setting) : both.text? x = (w.text? x).or (v.text? x) :=
      Value.text?_ofTexts _ x
    rw [withValue_withValue s hv hw hboth htexts]
    refine (withValue_withValue s hw hv hboth fun x => ?_).symm
    rw [htexts]
    rcases hapart x with h | h <;> simp [h]

/-- A text that is empty wins, and a member with an unknown key does not matter. -/
example : (({ dockerVolumePath := "/srv" } : Settings).withValue
    (.object [("phpCommand", .string ""), ("unknownKey", .bool true)])).toOption =
      some { phpCommand := "", dockerVolumePath := "/srv" } := by
  decide

end Settings

end DiagnosticRelay
