import DiagnosticRelay.Json.Value
import DiagnosticRelay.Url.Fault

/-!
# Misfits

A value that is read for what it means may be well written and still not fit. A
misfit says what was found and what was wanted.

## Main definitions

* `Json.Wanted`: what a reader wants.
* `Json.Misfit`: why a value does not fit.
* `Json.Misfit.message`: its wording.
-/

namespace DiagnosticRelay.Json

/-- What a reader wants. -/
inductive Wanted where
  | text
  | boolean
  /-- A natural number of 32 bits. -/
  | natural32
  /-- An integer of 32 bits. -/
  | integer32
  | list
  /-- A text that is a URL. -/
  | url
  /-- One of some names, as a text or as the only key of an object. -/
  | choice
  /-- What stands beside the name of a choice: nothing. -/
  | nothing
  | record (name : String)
  deriving DecidableEq, Repr

/-- The wording of what a reader wants. -/
def Wanted.message : Wanted → String
  | .text => "a string"
  | .boolean => "a boolean"
  | .natural32 => "u32"
  | .integer32 => "i32"
  | .list => "a sequence"
  | .url => "a string representing an URL"
  | .choice => "string or map"
  | .nothing => "unit"
  | .record name => "struct " ++ name

/-- Why a value does not fit. -/
inductive Misfit where
  /-- The value is of another type. -/
  | type (found : Found) (wanted : Wanted)
  /-- A number is of the right type but out of range. -/
  | range (found : Found) (wanted : Wanted)
  /-- A text is not a URL. -/
  | badUrl (text : String) (fault : Url.Fault)
  /-- A name is not among the choices. -/
  | noChoice (name : String) (choices : List String)
  /-- An object that stands for a choice has not exactly one key. -/
  | notOneChoice
  /-- A value is neither a number nor a text. -/
  | noToken
  /-- A record lacks a key. -/
  | missing (key : String)
  /-- An array of this many items has more of them than the record has fields. -/
  | tooLong (length : Nat)
  /-- An array of this many items has too few of them for the record. -/
  | tooShort (length : Nat) (name : String) (fields : Nat)
  deriving Repr

/-- Names as messages list them. -/
def listNames (names : List String) : String :=
  match names.map fun name => "\x60" ++ name ++ "\x60" with
  | [one] => one
  | [one, other] => one ++ " or " ++ other
  | several => "one of " ++ ", ".intercalate several

/-- The plural ending of a number of things. -/
def pluralEnding (n : Nat) : String := if n = 1 then "" else "s"

/-- The wording of a misfit. -/
def Misfit.message : Misfit → String
  | .type found wanted => "invalid type: " ++ found.message ++ ", expected " ++ wanted.message
  | .range found wanted => "invalid value: " ++ found.message ++ ", expected " ++ wanted.message
  | .badUrl text fault =>
    "invalid value: string " ++ Text.quote text ++ ", expected " ++ fault.message
  | .noChoice name choices =>
    "unknown variant \x60" ++ name ++ "\x60, expected " ++ listNames choices
  | .notOneChoice => "invalid value: map, expected map with a single key"
  | .noToken => "data did not match any variant of untagged enum NumberOrString"
  | .missing key => "missing field \x60" ++ key ++ "\x60"
  | .tooLong n => "invalid length " ++ toString n ++ ", expected fewer elements in array"
  | .tooShort n name fields =>
    "invalid length " ++ toString n ++ ", expected struct " ++ name ++ " with "
      ++ toString fields ++ " element" ++ pluralEnding fields

end DiagnosticRelay.Json
