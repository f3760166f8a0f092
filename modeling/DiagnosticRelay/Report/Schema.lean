import DiagnosticRelay.Json.Document
import DiagnosticRelay.Report.Basic

/-!
# The schema of report values

Inside `files` a report is read as a plain value first and fitted to the schema
afterwards. A record is an object, in which unknown keys are ignored and known
ones may not repeat, or an array of at most its fields in their order.

## Main definitions

* `Record.fields?`: the fields of a record value, by position.
* `Violation.ofValue?`, `FileResult.ofValue?`: the records inside `files`.
* `Report.filesOfValue?`: the files of a value.
-/

namespace DiagnosticRelay

open Json (Value)

namespace Record

/-- The values of a key among members. -/
def valuesOf (key : String) (members : List (String × Value)) : List Value :=
  (members.filter (·.1 == key)).map (·.2)

/-- The fields of a record value, in the order of the given keys and absent
where the record does not have them. Arrays longer than the record and objects
that repeat a key of it are no records. -/
def fields? (keys : List String) : Value → Option (List (Option Value))
  | .array items =>
    if items.length ≤ keys.length then
      some (items.map some ++ List.replicate (keys.length - items.length) none)
    else none
  | .object members =>
    keys.mapM fun key =>
      match valuesOf key members with
      | [] => some none
      | [v] => some (some v)
      | _ => none
  | .scalar _ => none

end Record

/-- An absent field takes its default, a present one has to fit. -/
def Json.Value.fieldOr? {α : Type} (default : α) (fit : Value → Option α) :
    Option Value → Option α
  | none => some default
  | some v => fit v

/-- A value that may be `null`. -/
def Json.Value.nullable? {α : Type} (fit : Value → Option α) (v : Value) : Option (Option α) :=
  if v.isNull then some none else (fit v).map some

/-- A 64-bit signed integer. -/
def Json.Value.int64? (v : Value) : Option Int64 :=
  v.int?.bind fun n => if Int64.minValue.toInt ≤ n ∧ n ≤ Int64.maxValue.toInt then some (Int64.ofInt n) else none

/-- A list whose items all fit. -/
def Json.Value.listOf? {α : Type} (fit : Value → Option α) (v : Value) : Option (List α) :=
  v.array?.bind fun items => items.mapM fit

/-- The keys of a violation, in the order of its array form. -/
def Violation.keys : List String := ["message", "line", "identifier", "ignorable", "tip"]

/-- The violation of a value. -/
def Violation.ofValue? (v : Value) : Option Violation := do
  match ← Record.fields? Violation.keys v with
  | [some message, line, identifier, ignorable, tip] =>
    return {
      message := ← message.string?
      line := ← Value.fieldOr? none (Value.nullable? Value.int64?) line
      identifier := ← Value.fieldOr? none (Value.nullable? Value.string?) identifier
      ignorable := ← Value.fieldOr? false Value.bool? ignorable
      tip := ← Value.fieldOr? none (Value.nullable? Value.string?) tip }
  | _ => none

/-- The keys of a file result. -/
def FileResult.keys : List String := ["messages"]

/-- The file result of a value. -/
def FileResult.ofValue? (v : Value) : Option FileResult := do
  match ← Record.fields? FileResult.keys v with
  | [messages] =>
    return ⟨← Value.fieldOr? none (Value.nullable? (Value.listOf? Violation.ofValue?)) messages⟩
  | _ => none

/-- What is wrong with the value of `files`. -/
inductive FilesDefect where
  /-- It fits neither the object form nor the empty list. -/
  | misfit
  /-- It is a list with items. -/
  | listed
  deriving DecidableEq, Repr

/-- The files of an object: of repeated paths the last result counts. -/
def Report.filesOfMembers? (members : List (String × Value)) :
    Option (List (String × FileResult)) := do
  let results ← members.mapM fun m => (FileResult.ofValue? m.2).map fun r => (m.1, r)
  return results.foldl (fun files r => insertFile r.1 r.2 files) []

/-- The files of a value. An empty list stands for no files. -/
def Report.filesOfValue? : Value → Except FilesDefect (List (String × FileResult))
  | .object members =>
    match Report.filesOfMembers? members with
    | some files => .ok files
    | none => .error .misfit
  | .array [] => .ok []
  | .array (_ :: _) => .error .listed
  | .scalar _ => .error .misfit

end DiagnosticRelay
