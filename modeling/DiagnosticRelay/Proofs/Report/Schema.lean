import DiagnosticRelay.Proofs.Report.Order
import DiagnosticRelay.Proofs.Report.Record
import Mathlib

/-!
# The reports that are accepted

A report says what its parts are, field by field: which fields may be missing and what they
stand for then, which may be `null`, and what values the others have. A text without
repeated keys is accepted as a report exactly when its value says so of one, and that is the
report which is read. The order of keys does not matter, and neither do unknown keys.

## Main definitions

* `Violation.IsDescribedBy`, `FileResult.IsDescribedBy`, `Totals.IsDescribedBy`,
  `Report.IsDescribedBy`: what values say of the parts of a report.

## Main results

* `Violation.ofValue?_eq_some_iff`, `FileResult.ofValue?_eq_some_iff`: the inner records.
* `Report.filesOfValue?_eq_ok_iff`: the files.
* `Report.parse_eq_ok_iff_isDescribedBy`: the reports of texts.
-/

namespace DiagnosticRelay

open Json (Value Node Items Members)

/-! ## What values say -/

namespace Json.Value

/-- `null`, or a value that fits. -/
inductive OrNull {α : Type} (fits : Value → α → Prop) : Value → Option α → Prop where
  | null : OrNull fits .null none
  | value {v : Value} {a : α} : fits v a → OrNull fits v (some a)

/-- A list whose items fit. -/
def IsListOf {α : Type} (fits : Value → α → Prop) (v : Value) (as : List α) : Prop :=
  ∃ items, v = .array items ∧ List.Forall₂ fits items as

/-- A string. -/
def IsText (v : Value) (s : String) : Prop := v = .string s

/-- `true` or `false`. -/
def IsTruth (v : Value) (b : Bool) : Prop := v = .bool b

/-- An integer of 64 bits with a sign. -/
def IsInt64 (v : Value) (n : Int64) : Prop := v = .int n.toInt

/-- An integer of 64 bits without a sign. -/
def IsCounter (v : Value) (n : UInt64) : Prop := v = .int n.toNat

end Json.Value

open Json.Value (FieldOr OrNull IsListOf IsText IsTruth IsInt64 IsCounter)

/-- A value describes a violation. Only its message has to be there. -/
structure Violation.IsDescribedBy (x : Violation) (v : Value) : Prop where
  record : v.IsRecord keys
  message : v.field? keys "message" = some (.string x.message)
  line : FieldOr none (OrNull IsInt64) (v.field? keys "line") x.line
  identifier : FieldOr none (OrNull IsText) (v.field? keys "identifier") x.identifier
  ignorable : FieldOr false IsTruth (v.field? keys "ignorable") x.ignorable
  tip : FieldOr none (OrNull IsText) (v.field? keys "tip") x.tip

/-- A value describes the result of a file. -/
structure FileResult.IsDescribedBy (r : FileResult) (v : Value) : Prop where
  record : v.IsRecord keys
  messages : FieldOr none (OrNull (IsListOf fun w x => Violation.IsDescribedBy x w))
    (v.field? keys "messages") r.messages

namespace Report

/-- A member describes a file: the path is its key, and the result is that of its value. -/
def DescribesFile (m : String × Value) (file : String × FileResult) : Prop :=
  file.1 = m.1 ∧ file.2.IsDescribedBy m.2

/-- A value describes files: it is the empty list, or maps each path to the result of the
file. The files stand in the order of their paths, whatever the order of the members is. -/
inductive DescribesFiles : Value → List (String × FileResult) → Prop where
  | none : DescribesFiles (.array []) []
  | map {members : List (String × Value)} {results files : List (String × FileResult)}
    (described : List.Forall₂ DescribesFile members results)
    (perm : files.Perm results) (ordered : files.Pairwise fun a b => a.1 < b.1) :
    DescribesFiles (.object members) files

end Report

/-- The keys of the totals. -/
def Totals.keys : List String := ["errors", "file_errors"]

/-- A value describes totals. -/
structure Totals.IsDescribedBy (t : Totals) (v : Value) : Prop where
  record : v.IsRecord keys
  errors : FieldOr 0 IsCounter (v.field? keys "errors") t.errors
  fileErrors : FieldOr 0 IsCounter (v.field? keys "file_errors") t.fileErrors

/-- The keys of a report. -/
def Report.keys : List String := ["files", "totals", "errors"]

/-- A value describes a report. -/
structure Report.IsDescribedBy (report : Report) (v : Value) : Prop where
  record : v.IsRecord keys
  files : FieldOr [] DescribesFiles (v.field? keys "files") report.files
  totals : FieldOr {} (fun w t => Totals.IsDescribedBy t w) (v.field? keys "totals") report.totals
  errors : FieldOr [] (IsListOf IsText) (v.field? keys "errors") report.errors

/-! ## Fitting values -/

section Fit

variable {α : Type} {v : Value} {w : Option Value} {default a : α}

theorem Json.Value.string?_eq_some_iff {s : String} : v.string? = some s ↔ IsText v s := by
  rcases v with (_ | _ | _ | _) | _ | _ <;> simp [string?, IsText, Value.string]

theorem Json.Value.bool?_eq_some_iff {b : Bool} : v.bool? = some b ↔ IsTruth v b := by
  rcases v with (_ | _ | _ | _) | _ | _ <;> simp [bool?, IsTruth, Value.bool]

theorem Json.Value.int?_eq_some_iff {n : Int} : v.int? = some n ↔ v = .int n := by
  rcases v with (_ | _ | (_ | _) | _) | _ | _ <;> simp [int?, Value.int]

theorem Json.Value.array?_eq_some_iff {items : List Value} :
    v.array? = some items ↔ v = .array items := by
  rcases v with _ | _ | _ <;> simp [array?]

theorem Json.Value.isNull_iff : v.isNull = true ↔ v = .null := by
  rcases v with (_ | _ | _ | _) | _ | _ <;> simp [isNull, Value.null]

theorem Json.Value.int64?_eq_some_iff {n : Int64} : v.int64? = some n ↔ IsInt64 v n := by
  rw [IsInt64, int64?, Option.bind_eq_some_iff]
  constructor
  · rintro ⟨k, hk, hn⟩
    split_ifs at hn with hbounds
    obtain rfl := Option.some.inj hn
    rw [int?_eq_some_iff.mp hk, Int64.toInt_ofInt_of_le hbounds.1 (Int.lt_of_le_sub_one hbounds.2)]
  · intro hv
    refine ⟨n.toInt, int?_eq_some_iff.mpr hv, ?_⟩
    rw [if_pos ⟨n.minValue_le_toInt, n.toInt_le⟩, Int64.ofInt_toInt]

variable {fit : Value → Option α} {fits : Value → α → Prop}

theorem Json.Value.fieldOr?_eq_some_iff
    (hfit : ∀ v, w = some v → (fit v = some a ↔ fits v a)) :
    Value.fieldOr? default fit w = some a ↔ FieldOr default fits w a := by
  cases w with
  | none => simp [fieldOr?, FieldOr, eq_comm]
  | some v => exact hfit v rfl

theorem Json.Value.nullable?_eq_some_iff (hnull : fit .null = none)
    (hfit : ∀ a, fit v = some a ↔ fits v a) {x : Option α} :
    v.nullable? fit = some x ↔ OrNull fits v x := by
  rw [nullable?]
  split_ifs with hv
  · -- Nothing else fits `null`.
    obtain rfl := isNull_iff.mp hv
    constructor
    · intro hx
      obtain rfl := Option.some.inj hx
      exact .null
    · rintro (_ | hfits)
      · rfl
      · rw [← hfit, hnull] at hfits
        cases hfits
  · rw [Option.map_eq_some_iff]
    constructor
    · rintro ⟨a, ha, rfl⟩
      exact .value ((hfit a).mp ha)
    · rintro (_ | hfits)
      · exact absurd rfl hv
      · exact ⟨_, (hfit _).mpr hfits, rfl⟩

/-- A list is fitted item by item. -/
theorem mapM_eq_some_iff {α β : Type} {f : α → Option β} {R : α → β → Prop} {as : List α}
    {bs : List β} (hfit : ∀ a ∈ as, ∀ b, f a = some b ↔ R a b) :
    as.mapM f = some bs ↔ List.Forall₂ R as bs := by
  induction as generalizing bs with
  | nil => simp [eq_comm]
  | cons a as ih =>
    obtain ⟨ha, has⟩ := List.forall_mem_cons.mp hfit
    rw [List.mapM_cons, List.forall₂_cons_left_iff]
    simp only [Option.bind_eq_bind, Option.bind_eq_some_iff, Option.pure_def, Option.some.injEq,
      ih has, ha]
    constructor
    · rintro ⟨b, hb, rest, hrest, rfl⟩
      exact ⟨b, rest, hb, hrest, rfl⟩
    · rintro ⟨b, rest, hb, hrest, rfl⟩
      exact ⟨b, hb, rest, hrest, rfl⟩

theorem Json.Value.listOf?_eq_some_iff {as : List α}
    (hfit : ∀ items, v = .array items → ∀ item ∈ items, ∀ a, fit item = some a ↔ fits item a) :
    v.listOf? fit = some as ↔ IsListOf fits v as := by
  rw [listOf?, Option.bind_eq_some_iff, IsListOf]
  refine exists_congr fun items => ?_
  rw [array?_eq_some_iff]
  refine and_congr_right fun hv => ?_
  exact mapM_eq_some_iff (hfit items hv)

end Fit

/-! ## Inner records -/

/-- The values of a key that stands at most once. -/
theorem Record.valuesOf_eq {key : String} {members : List (String × Value)}
    (hnodup : (members.map (·.1)).Nodup) :
    valuesOf key members = (Value.lookup? key members).toList := by
  induction members with
  | nil => rfl
  | cons m rest ih =>
    obtain ⟨k, v⟩ := m
    rw [List.map_cons, List.nodup_cons] at hnodup
    by_cases hk : k = key
    · subst hk
      have hrest := ih hnodup.2
      rw [Value.lookup?_eq_none hnodup.1] at hrest
      rw [Value.lookup?_cons, Value.lookup?_eq_none hnodup.1, if_pos rfl]
      rw [valuesOf] at hrest ⊢
      simpa using hrest
    · rw [Value.lookup?_cons_of_ne hk, ← ih hnodup.2, valuesOf, valuesOf,
        List.filter_cons_of_neg (by simpa using hk)]

/-- The fields of a record are those of its keys. -/
theorem Record.fields?_eq_some_iff (keys : List String) (hkeys : keys.Nodup) {v : Value}
    (hdistinct : v.HasDistinctKeys) {fs : List (Option Value)} :
    fields? keys v = some fs ↔ v.IsRecord keys ∧ fs = keys.map fun key => v.field? keys key := by
  cases v with
  | scalar s => simp [fields?, Value.IsRecord]
  | array items =>
    rw [fields?, Value.IsRecord]
    split_ifs with hle
    · have hfields : items.map some ++ List.replicate (keys.length - items.length) none =
          keys.map fun key => (Value.array items).field? keys key := by
        refine List.ext_getElem (by simp [hle]) fun i hi hi' => ?_
        rw [List.getElem_map, Value.field?, List.Nodup.idxOf_getElem hkeys, List.getElem_append]
        split_ifs with hitem
        · rw [List.getElem_map, List.getElem?_eq_getElem (by simpa using hitem)]
        · rw [List.getElem_replicate, List.getElem?_eq_none (by simpa using hitem)]
      rw [hfields, Option.some.injEq]
      exact ⟨fun h => ⟨hle, h.symm⟩, fun h => h.2.symm⟩
    · simp [hle]
  | object members =>
    have hfields : fields? keys (.object members) =
        some (keys.map fun key => (Value.object members).field? keys key) := by
      rw [fields?, mapM_eq_some_iff fun _ _ _ => Iff.rfl, List.forall₂_map_right_iff,
        List.forall₂_same]
      intro key _
      rw [valuesOf_eq hdistinct.nodup, Value.field?]
      cases Value.lookup? key members <;> rfl
    rw [hfields, Option.some.injEq]
    exact ⟨fun h => ⟨trivial, h.symm⟩, fun h => h.2.symm⟩

theorem Record.fields?_eq_none {keys : List String} (hkeys : keys.Nodup) {v : Value}
    (hdistinct : v.HasDistinctKeys) (hrecord : ¬v.IsRecord keys) : fields? keys v = none :=
  Option.eq_none_iff_forall_ne_some.mpr fun _ hfs =>
    hrecord ((fields?_eq_some_iff keys hkeys hdistinct).mp hfs).1

/-- The fields of a value without repeated keys do not repeat keys either. -/
theorem Json.Value.HasDistinctKeys.field? {v w : Value} (h : v.HasDistinctKeys)
    {keys : List String} {key : String} (hfield : v.field? keys key = some w) :
    w.HasDistinctKeys := by
  cases v with
  | scalar s => cases hfield
  | array items => exact Throughout.items h w (List.mem_of_getElem? hfield)
  | object members =>
    obtain ⟨m, hm, rfl⟩ := Option.map_eq_some_iff.mp hfield
    exact Throughout.members h m (List.mem_reverse.mp (List.mem_of_find?_eq_some hm))

/-- A violation is read from the values that describe it. -/
theorem Violation.ofValue?_eq_some_iff {v : Value} (hdistinct : v.HasDistinctKeys)
    {x : Violation} : ofValue? v = some x ↔ x.IsDescribedBy v := by
  by_cases hrecord : v.IsRecord keys
  · have hfive : Record.fields? keys v = some [v.field? keys "message", v.field? keys "line",
        v.field? keys "identifier", v.field? keys "ignorable", v.field? keys "tip"] :=
      (Record.fields?_eq_some_iff keys (by decide) hdistinct).mpr ⟨hrecord, rfl⟩
    rw [ofValue?, hfive]
    cases hmessage : v.field? keys "message" with
    | none =>
      refine iff_of_false (by simp) fun h => ?_
      have hthere := h.message
      rw [hmessage] at hthere
      cases hthere
    | some message =>
      have hline w n : Value.fieldOr? none (Value.nullable? Value.int64?) w = some n ↔
          FieldOr none (OrNull IsInt64) w n :=
        Value.fieldOr?_eq_some_iff fun _ _ =>
          Value.nullable?_eq_some_iff rfl fun _ => Value.int64?_eq_some_iff
      have htext w s : Value.fieldOr? none (Value.nullable? Value.string?) w = some s ↔
          FieldOr none (OrNull IsText) w s :=
        Value.fieldOr?_eq_some_iff fun _ _ =>
          Value.nullable?_eq_some_iff rfl fun _ => Value.string?_eq_some_iff
      have htruth w b : Value.fieldOr? false Value.bool? w = some b ↔ FieldOr false IsTruth w b :=
        Value.fieldOr?_eq_some_iff fun _ _ => Value.bool?_eq_some_iff
      simp only [Option.bind_eq_bind, Option.bind_some, Option.bind_eq_some_iff, Option.pure_def,
        Option.some.injEq, Value.string?_eq_some_iff, IsText, hline, htext, htruth]
      constructor
      · rintro ⟨_, rfl, _, hline, _, hidentifier, _, hignorable, _, htip, rfl⟩
        exact ⟨hrecord, hmessage, hline, hidentifier, hignorable, htip⟩
      · rintro ⟨-, hthere, hline, hidentifier, hignorable, htip⟩
        rw [hmessage] at hthere
        exact ⟨_, Option.some.inj hthere, _, hline, _, hidentifier, _, hignorable, _, htip, rfl⟩
  · rw [ofValue?, Record.fields?_eq_none (by decide) hdistinct hrecord]
    exact iff_of_false (by simp) fun h => hrecord h.record

/-- The result of a file is read from the values that describe it. -/
theorem FileResult.ofValue?_eq_some_iff {v : Value} (hdistinct : v.HasDistinctKeys)
    {r : FileResult} : ofValue? v = some r ↔ r.IsDescribedBy v := by
  by_cases hrecord : v.IsRecord keys
  · have hone : Record.fields? keys v = some [v.field? keys "messages"] :=
      (Record.fields?_eq_some_iff keys (by decide) hdistinct).mpr ⟨hrecord, rfl⟩
    have hmessages messages :
        Value.fieldOr? none (Value.nullable? (Value.listOf? Violation.ofValue?))
            (v.field? keys "messages") = some messages ↔
          FieldOr none (OrNull (IsListOf fun w x => Violation.IsDescribedBy x w))
            (v.field? keys "messages") messages := by
      refine Value.fieldOr?_eq_some_iff fun w hw => ?_
      refine Value.nullable?_eq_some_iff rfl fun xs => ?_
      refine Value.listOf?_eq_some_iff fun items hitems item hitem x => ?_
      have hlist : (Value.array items).HasDistinctKeys := hitems ▸ hdistinct.field? hw
      exact Violation.ofValue?_eq_some_iff (Value.Throughout.items hlist item hitem)
    rw [ofValue?, hone]
    simp only [Option.bind_eq_bind, Option.bind_some, Option.bind_eq_some_iff, Option.pure_def,
      Option.some.injEq, hmessages]
    constructor
    · rintro ⟨_, hread, rfl⟩
      exact ⟨hrecord, hread⟩
    · rintro ⟨-, hread⟩
      exact ⟨_, hread, rfl⟩
  · rw [ofValue?, Record.fields?_eq_none (by decide) hdistinct hrecord]
    exact iff_of_false (by simp) fun h => hrecord h.record

/-! ## Files -/

namespace Report

/-- Entering a new path adds its result. -/
theorem insertFile_perm {path : String} (result : FileResult)
    {files : List (String × FileResult)} (hnew : path ∉ files.map (·.1)) :
    (insertFile path result files).Perm ((path, result) :: files) := by
  induction files with
  | nil => exact .refl _
  | cons file rest ih =>
    rw [List.map_cons, List.mem_cons, not_or] at hnew
    rw [insertFile, if_neg hnew.1]
    split_ifs
    · exact .refl _
    · exact ((ih hnew.2).cons file).trans (.swap ..)

/-- Entering paths of their own adds all results. -/
theorem foldl_insertFile_perm {results files : List (String × FileResult)}
    (hnodup : ((files ++ results).map (·.1)).Nodup) :
    (results.foldl (fun files r => insertFile r.1 r.2 files) files).Perm (files ++ results) := by
  induction results generalizing files with
  | nil => simp
  | cons r results ih =>
    have hnew : r.1 ∉ files.map (·.1) := by
      rw [List.map_append, List.nodup_append] at hnodup
      exact fun hmem => hnodup.2.2 r.1 hmem r.1 (by simp) rfl
    have hentered : (insertFile r.1 r.2 files ++ results).Perm (files ++ r :: results) :=
      ((insertFile_perm r.2 hnew).append_right results).trans List.perm_middle.symm
    exact (ih ((hentered.map _).nodup_iff.mpr hnodup)).trans hentered

/-- The files that members describe have the paths of the members. -/
theorem paths_eq_of_describesFile {members : List (String × Value)}
    {results : List (String × FileResult)} (h : List.Forall₂ DescribesFile members results) :
    results.map (·.1) = members.map (·.1) := by
  refine List.forall₂_eq_eq_eq ▸ ?_
  rw [List.forall₂_map_left_iff, List.forall₂_map_right_iff]
  exact h.flip.imp fun _ _ hfile => hfile.1

/-- A file is read from the member that describes it. -/
theorem map_ofValue?_eq_some_iff {m : String × Value} (hdistinct : m.2.HasDistinctKeys)
    {file : String × FileResult} :
    ((FileResult.ofValue? m.2).map fun result => (m.1, result)) = some file ↔
      DescribesFile m file := by
  simp only [Option.map_eq_some_iff, FileResult.ofValue?_eq_some_iff hdistinct]
  constructor
  · rintro ⟨result, hresult, rfl⟩
    exact ⟨rfl, hresult⟩
  · rintro ⟨hpath, hresult⟩
    exact ⟨file.2, hresult, by rw [← hpath]⟩

/-- The files of an object are those of its members, in the order of the paths. -/
theorem filesOfMembers?_eq_some_iff {members : List (String × Value)}
    (hdistinct : (Value.object members).HasDistinctKeys) {files : List (String × FileResult)} :
    filesOfMembers? members = some files ↔ DescribesFiles (.object members) files := by
  have hread (results : List (String × FileResult)) :
      (members.mapM fun m => (FileResult.ofValue? m.2).map fun r => (m.1, r)) = some results ↔
        List.Forall₂ DescribesFile members results :=
    mapM_eq_some_iff fun m hm _ =>
      map_ofValue?_eq_some_iff (Value.Throughout.members hdistinct m hm)
  -- Every member has a path of its own, so no result replaces another one.
  have hall {results : List (String × FileResult)}
      (hresults : List.Forall₂ DescribesFile members results) :
      (results.foldl (fun files r => insertFile r.1 r.2 files) []).Perm results := by
    refine foldl_insertFile_perm ?_
    rw [List.nil_append, paths_eq_of_describesFile hresults]
    exact hdistinct.nodup
  rw [filesOfMembers?, Option.bind_eq_bind, Option.bind_eq_some_iff]
  constructor
  · rintro ⟨results, hresults, hfiles⟩
    have hdescribed := (hread results).mp hresults
    obtain rfl := Option.some.inj hfiles
    exact .map hdescribed (hall hdescribed) (pairwise_foldl_insertFile results)
  · intro h
    cases h with
    | map described perm ordered =>
      refine ⟨_, (hread _).mpr described, congrArg some ?_⟩
      -- There is one order of the paths.
      have hperm := (hall described).trans perm.symm
      exact hperm.eq_of_pairwise (fun _ _ _ _ hab hba => absurd hab (lt_asymm hba))
        (pairwise_foldl_insertFile _) ordered

/-- The files are read from the values that describe them. -/
theorem filesOfValue?_eq_ok_iff {v : Value} (hdistinct : v.HasDistinctKeys)
    {files : List (String × FileResult)} :
    filesOfValue? v = .ok files ↔ DescribesFiles v files := by
  cases v with
  | scalar s => exact iff_of_false (by simp [filesOfValue?]) fun h => by cases h
  | array items =>
    cases items with
    | nil =>
      rw [filesOfValue?, Except.ok.injEq]
      constructor
      · rintro rfl
        exact .none
      · rintro (_ | _)
        rfl
    | cons item items => exact iff_of_false (by simp [filesOfValue?]) fun h => by cases h
  | object members =>
    rw [← filesOfMembers?_eq_some_iff hdistinct, filesOfValue?]
    cases filesOfMembers? members <;> simp

/-! ## Parts of records -/

section Fields

variable {depth : Nat} {node : Node} {v : Value}

/-- A counter is read from the integers that fit. -/
theorem counter_eq_ok_iff (hv : node.value depth = .ok v) (hwritten : v.IsWritten) {n : UInt64} :
    counter node = .ok n ↔ IsCounter v n := by
  obtain ⟨s, stop, rfl, rfl⟩ | ⟨start, items, _, _, rfl, -, -, rfl⟩ |
    ⟨start, members, _, _, rfl, -, -, rfl⟩ := Node.cases_of_value_eq_ok hv
  · rcases s with _ | _ | (k | _) | _
    case number.integer =>
      have hbounds : -(2 ^ 63 : Int) ≤ k ∧ k < 2 ^ 64 := Value.IsWritten.bounds hwritten
      have hint : IsCounter (.scalar (.number (.integer k))) n ↔ k = n.toNat := by
        simp [IsCounter, Value.int]
      rw [counter, hint]
      split_ifs with hnonneg
      · have hkept : (UInt64.ofNat k.toNat).toNat = k.toNat :=
          UInt64.toNat_ofNat_of_lt' (by rw [UInt64.size]; omega)
        rw [Except.ok.injEq]
        constructor
        · rintro rfl
          rw [hkept, Int.toNat_of_nonneg hnonneg]
        · rintro rfl
          rw [Int.toNat_natCast, UInt64.ofNat_toNat]
      · refine iff_of_false (by simp) ?_
        rintro rfl
        exact hnonneg (Int.natCast_nonneg _)
    -- Nothing else is an integer.
    all_goals simp [counter, IsCounter, Value.int]
  · simp [counter, IsCounter, Value.int]
  · simp [counter, IsCounter, Value.int]

/-- The text of a node is that of its value. -/
theorem stringOf_eq_ok_iff (hv : node.value depth = .ok v) {s : String} :
    stringOf node = .ok s ↔ IsText v s := by
  obtain ⟨s, stop, rfl, rfl⟩ | ⟨start, items, _, _, rfl, -, -, rfl⟩ |
    ⟨start, members, _, _, rfl, -, -, rfl⟩ := Node.cases_of_value_eq_ok hv
  · cases s <;> simp [stringOf, IsText, Value.string]
  · simp [stringOf, IsText, Value.string]
  · simp [stringOf, IsText, Value.string]

theorem stringsOf_eq_ok_iff {items : Items} {vs : List Value} (hvs : items.values depth = .ok vs)
    {ss : List String} : stringsOf items = .ok ss ↔ List.Forall₂ IsText vs ss := by
  induction vs generalizing items ss with
  | nil =>
    obtain ⟨stop, rfl, -⟩ | ⟨_, _, _, _, _, -, -, -, hcons⟩ := Items.cases_of_values_eq_ok hvs
    · simp [stringsOf, eq_comm]
    · cases hcons
  | cons v vs ih =>
    obtain ⟨_, -, hnil⟩ | ⟨start, node, next, w, rest, rfl, hv, hrest, hcons⟩ :=
      Items.cases_of_values_eq_ok hvs
    · cases hnil
    · obtain ⟨rfl, rfl⟩ := List.cons.inj hcons
      rw [stringsOf, List.forall₂_cons_left_iff]
      simp only [← stringOf_eq_ok_iff hv, ← ih hrest]
      cases stringOf node <;> cases stringsOf next <;>
        simp [bind, Except.bind, pure, Except.pure, eq_comm]

/-- A list of strings is read from the values that are one. -/
theorem stringList_eq_ok_iff (hv : node.value depth = .ok v) {ss : List String} :
    stringList depth node = .ok ss ↔ IsListOf IsText v ss := by
  obtain ⟨s, stop, rfl, rfl⟩ | ⟨start, items, below, vs, rfl, rfl, hvs, rfl⟩ |
    ⟨start, members, below, ms, rfl, rfl, -, rfl⟩ := Node.cases_of_value_eq_ok hv
  · simp [stringList, IsListOf]
  · rw [stringList, stringsOf_eq_ok_iff hvs]
    simp [IsListOf]
  · simp [stringList, IsListOf]

/-- The files are read from the values that describe them. -/
theorem filesOf_eq_ok_iff (hv : node.value depth = .ok v) (hdistinct : v.HasDistinctKeys)
    {files : List (String × FileResult)} :
    filesOf depth node = .ok files ↔ DescribesFiles v files := by
  rw [← filesOfValue?_eq_ok_iff hdistinct, filesOf, hv]
  exact mapError_eq_ok_iff

end Fields

/-! ## Totals -/

/-- The parts of the totals. -/
def totalsParts : List (Part Totals) := [
  ⟨"errors", (·.errors), fun n totals => { totals with errors := n }, IsCounter, fun _ _ => rfl⟩,
  ⟨"file_errors", (·.fileErrors), fun n totals => { totals with fileErrors := n }, IsCounter,
    fun _ _ => rfl⟩]

theorem isFitted_totals : IsFitted totalsParts totalsFields where
  fields :=
    .cons (Part.describes_of_read fun hv hclear => counter_eq_ok_iff hv hclear.written) <|
    .cons (Part.describes_of_read fun hv hclear => counter_eq_ok_iff hv hclear.written) .nil
  nodup := by decide
  apart := by
    intro p hp q hq hne a record
    simp only [totalsParts, List.mem_cons, List.not_mem_nil, or_false] at hp hq
    rcases hp with rfl | rfl <;> rcases hq with rfl | rfl
    · exact absurd rfl hne
    · rfl
    · rfl
    · exact absurd rfl hne
  ext := by
    rintro ⟨errors, fileErrors⟩ ⟨errors', fileErrors'⟩ h
    simp only [totalsParts, List.forall_mem_cons] at h
    obtain ⟨rfl, rfl, -⟩ := h
    rfl

/-- The totals are read from the values that describe them. -/
theorem totals_eq_ok_iff {depth : Nat} {node : Node} {v : Value} (hv : node.value depth = .ok v)
    (hclear : v.IsClear) {totals : Totals} :
    enterRecord "struct Totals" totalsFields depth node {} = .ok totals ↔
      totals.IsDescribedBy v := by
  rw [isFitted_totals.enterRecord_eq_ok_iff hv hclear]
  constructor
  · rintro ⟨hrecord, hparts⟩
    simp only [totalsParts, List.forall_mem_cons] at hparts
    exact ⟨hrecord, hparts.1, hparts.2.1⟩
  · rintro ⟨hrecord, herrors, hfileErrors⟩
    refine ⟨hrecord, ?_⟩
    simp only [totalsParts, List.forall_mem_cons]
    exact ⟨herrors, hfileErrors, List.forall_mem_nil _⟩

/-! ## Reports -/

/-- The parts of a report. -/
def parts : List (Part Report) := [
  ⟨"files", (·.files), fun files report => { report with files }, DescribesFiles,
    fun _ _ => rfl⟩,
  ⟨"totals", (·.totals), fun totals report => { report with totals },
    fun w t => Totals.IsDescribedBy t w, fun _ _ => rfl⟩,
  ⟨"errors", (·.errors), fun errors report => { report with errors }, IsListOf IsText,
    fun _ _ => rfl⟩]

theorem isFitted_report : IsFitted parts fields where
  fields :=
    .cons (Part.describes_of_read fun hv hclear => filesOf_eq_ok_iff hv hclear.distinct) <|
    .cons (Part.describes_of_read fun hv hclear =>
      mapError_eq_ok_iff.trans (totals_eq_ok_iff hv hclear)) <|
    .cons (Part.describes_of_read fun hv _ =>
      mapError_eq_ok_iff.trans (stringList_eq_ok_iff hv)) .nil
  nodup := by decide
  apart := by
    intro p hp q hq hne a record
    simp only [parts, List.mem_cons, List.not_mem_nil, or_false] at hp hq
    -- A part that is put is no other part.
    rcases hp with rfl | rfl | rfl <;> rcases hq with rfl | rfl | rfl <;>
      first | rfl | exact absurd rfl hne
  ext := by
    rintro ⟨files, totals, errors⟩ ⟨files', totals', errors'⟩ h
    simp only [parts, List.forall_mem_cons] at h
    obtain ⟨rfl, rfl, rfl, -⟩ := h
    rfl

/-- The record of a report is read from the values that describe it. -/
theorem report_eq_ok_iff {depth : Nat} {node : Node} {v : Value} (hv : node.value depth = .ok v)
    (hclear : v.IsClear) {report : Report} :
    enterRecord "struct AnalysisReport" fields depth node {} = .ok report ↔
      report.IsDescribedBy v := by
  rw [isFitted_report.enterRecord_eq_ok_iff hv hclear]
  constructor
  · rintro ⟨hrecord, hparts⟩
    simp only [parts, List.forall_mem_cons] at hparts
    exact ⟨hrecord, hparts.1, hparts.2.1, hparts.2.2.1⟩
  · rintro ⟨hrecord, hfiles, htotals, herrors⟩
    refine ⟨hrecord, ?_⟩
    simp only [parts, List.forall_mem_cons]
    exact ⟨hfiles, htotals, herrors, List.forall_mem_nil _⟩

/-- A text that has a value, and does not repeat a key in an object, is accepted as a report
exactly if its value describes one, and that one is read. -/
theorem parse_eq_ok_iff_isDescribedBy {text : String} {v : Value}
    (hvalue : (Json.Document.ofString text).value deepest = .ok v)
    (hdistinct : v.HasDistinctKeys) (report : Report) :
    parse text = .ok report ↔ report.IsDescribedBy v := by
  obtain ⟨hroot, htrailing⟩ := Json.Document.value_eq_ok_iff.mp hvalue
  have hclear : v.IsClear := ⟨hdistinct, Json.Document.isWritten_of_ofString hvalue⟩
  rw [← report_eq_ok_iff hroot hclear, parse, mapError_eq_ok_iff, ofDocument, htrailing]
  -- Nothing follows the record, so it is the report.
  cases enterRecord "struct AnalysisReport" fields deepest (Json.Document.ofString text).root {} <;>
    rfl

/-! ## A text in an order of its own -/

section Permuted

/-- A report whose keys stand in an order of their own, with unknown keys among them. The
second file is a list. -/
def permutedText : String :=
  "\x7b\"errors\":[\"lost\"],\"extra\":[],\"totals\":\x7b\"file_errors\":2,\"time\":null\x7d," ++
  "\"files\":\x7b\"b.php\":\x7b\"messages\":[\x7b\"line\":3,\"message\":\"m\"\x7d]\x7d," ++
  "\"a.php\":[]\x7d\x7d"

/-- The value of the text. -/
def permutedValue : Value := .object [
  ("errors", .array [.string "lost"]),
  ("extra", .array []),
  ("totals", .object [("file_errors", .int 2), ("time", .null)]),
  ("files", .object [
    ("b.php", .object [
      ("messages", .array [.object [("line", .int 3), ("message", .string "m")]])]),
    ("a.php", .array [])])]

/-- What the value describes: a file of its own for each path, in the order of the paths. -/
def permutedReport : Report where
  files := [("a.php", {}), ("b.php", ⟨some [{ message := "m", line := some 3 }]⟩)]
  totals := { fileErrors := 2 }
  errors := ["lost"]

theorem hasDistinctKeys_permutedValue : permutedValue.HasDistinctKeys := by
  simp [permutedValue, Value.hasDistinctKeys_object_iff, Value.hasDistinctKeys_array_iff,
    Value.hasDistinctKeys_scalar, Value.string, Value.int, Value.null]

/-- The violation stands in an object, the first file in a list. -/
theorem isDescribedBy_permutedValue : permutedReport.IsDescribedBy permutedValue := by
  have hviolation : Violation.IsDescribedBy { message := "m", line := some 3 }
      (.object [("line", .int 3), ("message", .string "m")]) :=
    ⟨trivial, rfl, .value rfl, rfl, rfl, rfl⟩
  have hsecond : FileResult.IsDescribedBy ⟨some [{ message := "m", line := some 3 }]⟩
      (.object [("messages", .array [.object [("line", .int 3), ("message", .string "m")]])]) :=
    ⟨trivial, .value ⟨_, rfl, .cons hviolation .nil⟩⟩
  have hfirst : FileResult.IsDescribedBy {} (.array []) := ⟨Nat.zero_le _, rfl⟩
  have htotals : Totals.IsDescribedBy { fileErrors := 2 }
      (.object [("file_errors", .int 2), ("time", .null)]) := ⟨trivial, rfl, rfl⟩
  have herrors : IsListOf IsText (.array [.string "lost"]) ["lost"] := ⟨_, rfl, .cons rfl .nil⟩
  refine ⟨trivial, .map (.cons ⟨rfl, hsecond⟩ (.cons ⟨rfl, hfirst⟩ .nil)) (.swap ..) ?_, htotals,
    herrors⟩
  decide

/-- The keys may stand in any order, and so may the files. -/
theorem parse_permutedText :
    (Json.Document.ofString permutedText).value deepest = .ok permutedValue ∧
      permutedValue.HasDistinctKeys ∧ permutedReport.IsDescribedBy permutedValue ∧
      parse permutedText = .ok permutedReport := by
  have hvalue : (Json.Document.ofString permutedText).value deepest = .ok permutedValue := by cbv
  have haccepted := parse_eq_ok_iff_isDescribedBy hvalue hasDistinctKeys_permutedValue
    permutedReport
  exact ⟨hvalue, hasDistinctKeys_permutedValue, isDescribedBy_permutedValue,
    haccepted.mpr isDescribedBy_permutedValue⟩

end Permuted

end Report

end DiagnosticRelay
