import DiagnosticRelay.Json.Misfit
import DiagnosticRelay.Url.Reading

/-!
# Shapes of values

A shape says which values are welcome. Fitting a value to a shape gives the same
content in one form: records become objects that have every key of the shape,
with `null` for what was not given.

## Main definitions

* `Json.Shape`: which values are welcome.
* `Json.Shape.fit`: the one form of a value, or why it does not fit.
-/

namespace DiagnosticRelay.Json

/-- Which values are welcome. -/
inductive Shape where
  /-- Every value. -/
  | any
  | text
  | boolean
  | natural32
  | integer32
  | url
  /-- An integer or a text. -/
  | token
  /-- One of some names. -/
  | choice (names : List String)
  /-- A value of a shape, or `null`. As a field it may be absent from an object. -/
  | nullable (shape : Shape)
  /-- A value of a shape that may be absent as a field. -/
  | defaulted (shape : Shape)
  | list (item : Shape)
  /-- Any object or array, for a record of the given name. -/
  | anyRecord (name : String)
  /-- A record: an object, or an array of the fields in their order. -/
  | record (name : String) (fields : List (String × Shape))
  /-- A record that is always an object. -/
  | keyed (name : String) (fields : List (String × Shape))

/-- A fitted field: its key, and its value or why there is none. -/
structure FittedField where
  key : String
  /-- Whether the value was written. -/
  isGiven : Bool
  value : Except Misfit Value

namespace Shape

/-- An integer within bounds, or why it is none. -/
def integerWithin (low high : Int) (wanted : Wanted) (v : Value) : Except Misfit Value :=
  match v.int? with
  | none => .error (.type v.found wanted)
  | some n => if low ≤ n ∧ n ≤ high then .ok v else .error (.range v.found wanted)

/-- A natural number of 32 bits, or why it is none. -/
def natural32Of (v : Value) : Except Misfit Value :=
  integerWithin 0 (UInt32.size - 1) .natural32 v

/-- An integer of 32 bits, or why it is none. -/
def integer32Of (v : Value) : Except Misfit Value :=
  integerWithin Int32.minValue.toInt Int32.maxValue.toInt .integer32 v

/-- A URL, or why it is none. -/
def urlOf (v : Value) : Except Misfit Value :=
  match v.string? with
  | none => .error (.type v.found .url)
  | some s =>
    match Url.parse s with
    | .ok _ => .ok v
    | .error fault => .error (.badUrl s fault)

/-- A name among the choices, or why it is none. -/
def chosen (names : List String) (name : String) : Except Misfit Value :=
  if names.contains name then .ok (.string name) else .error (.noChoice name names)

/-- A choice, or why it is none. -/
def choiceOf (names : List String) : Value → Except Misfit Value
  | .scalar (.string name) => chosen names name
  | .object [(name, v)] => do
    let choice ← chosen names name
    if v.isNull then return choice else throw (.type v.found .nothing)
  | .object _ => .error .notOneChoice
  | v => .error (.type v.found .choice)

/-- A token, or why it is none. -/
def tokenOf (v : Value) : Except Misfit Value :=
  if v.string?.isSome then .ok v
  else (integer32Of v).mapError fun _ => .noToken

/-- What an absent field of an object stands for. -/
def absentKey (key : String) : Shape → Except Misfit Value
  | .nullable _ | .defaulted _ => .ok .null
  | _ => .error (.missing key)

/-- What a field beyond the end of an array stands for. -/
def absentItem (name : String) (length fields : Nat) : Shape → Except Misfit Value
  | .defaulted _ => .ok .null
  | _ => .error (.tooShort length name fields)

/-- The misfit of a field. -/
def misfit? (f : FittedField) : Option Misfit :=
  match f.value with
  | .ok _ => none
  | .error m => some m

/-- The first misfit of an object: those of written fields come first, in the
order of their keys, then the missing ones. -/
def firstMisfit? (fields : List FittedField) : Option Misfit :=
  let written := (fields.filter (·.isGiven)).mergeSort fun f g => f.key ≤ g.key
  (written.findSome? misfit?).orElse fun _ => fields.findSome? misfit?

/-- A fitted field as a member. -/
def member? (f : FittedField) : Option (String × Value) :=
  f.value.toOption.map fun v => (f.key, v)

/-- An object of fitted fields that have no misfit. -/
def gather (fields : List FittedField) : Value := .object (fields.filterMap member?)

/-- The object of the fields of an object. -/
def ofKeys (fields : List FittedField) : Except Misfit Value :=
  match firstMisfit? fields with
  | some m => .error m
  | none => .ok (gather fields)

/-- The object of the fields of an array of a given length. -/
def ofPositions (length : Nat) (fields : List FittedField) : Except Misfit Value :=
  match fields.findSome? misfit? with
  | some m => .error m
  | none => if fields.length < length then .error (.tooLong length) else .ok (gather fields)

mutual

/-- The one form of a value that fits a shape, or why it does not fit. -/
def fit : Shape → Value → Except Misfit Value
  | .any, v => .ok v
  | .text, v => if v.string?.isSome then .ok v else .error (.type v.found .text)
  | .boolean, v => if v.bool?.isSome then .ok v else .error (.type v.found .boolean)
  | .natural32, v => natural32Of v
  | .integer32, v => integer32Of v
  | .url, v => urlOf v
  | .token, v => tokenOf v
  | .choice names, v => choiceOf names v
  | .nullable shape, v => if v.isNull then .ok v else fit shape v
  | .defaulted shape, v => fit shape v
  | .list item, v =>
    match v.array? with
    | some items => (items.mapM (fit item)).map .array
    | none => .error (.type v.found .list)
  | .anyRecord name, v =>
    match v with
    | .scalar s => .error (.type (.scalar s) (.record name))
    | v => .ok v
  | .record name fields, v =>
    match v with
    | .object members => ofKeys (fitKeys members fields)
    | .array items =>
      ofPositions items.length (fitPositions name items.length fields.length items fields)
    | .scalar s => .error (.type (.scalar s) (.record name))
  | .keyed name fields, v =>
    match v with
    | .object members => ofKeys (fitKeys members fields)
    | v => .error (.type v.found (.record name))

/-- The fields of an object. -/
def fitKeys (members : List (String × Value)) : List (String × Shape) → List FittedField
  | [] => []
  | (key, shape) :: rest =>
    let field : FittedField := match Value.lookup? key members with
      | some v => ⟨key, true, fit shape v⟩
      | none => ⟨key, false, absentKey key shape⟩
    field :: fitKeys members rest

/-- The fields of an array, of which the items not yet used are given. -/
def fitPositions (name : String) (length fields : Nat) :
    List Value → List (String × Shape) → List FittedField
  | _, [] => []
  | [], (key, shape) :: rest =>
    ⟨key, false, absentItem name length fields shape⟩ :: fitPositions name length fields [] rest
  | v :: items, (key, shape) :: rest =>
    ⟨key, true, fit shape v⟩ :: fitPositions name length fields items rest

end

end Shape

end DiagnosticRelay.Json
