import DiagnosticRelay.Json.Number
import DiagnosticRelay.Text.Quoted
import DiagnosticRelay.Decimal.Shortest

/-!
# JSON values

Objects keep their members in the order of the text, repeated keys included, so
that a reader can tell which keys were repeated.

## Main definitions

* `Json.Scalar`: a value without parts.
* `Json.Value`: scalars, arrays and objects.
* `Json.Value.member?`: the last value of a key.
* `Json.Found`: what a message says it found instead of what it wanted.
-/

namespace DiagnosticRelay.Json

/-- A value without parts. -/
inductive Scalar where
  | null
  | bool (value : Bool)
  | number (value : Number)
  | string (value : String)
  deriving Repr

/-- A JSON value. -/
inductive Value where
  | scalar (value : Scalar)
  | array (items : List Value)
  | object (members : List (String × Value))

namespace Value

/-- The value `null`. -/
def null : Value := .scalar .null

/-- A truth value. -/
def bool (b : Bool) : Value := .scalar (.bool b)

/-- An integer. -/
def int (n : Int) : Value := .scalar (.number (.integer n))

/-- A string. -/
def string (s : String) : Value := .scalar (.string s)

/-- A string, or `null` without one. -/
def optionalString : Option String → Value
  | none => null
  | some s => string s

/-- Whether a value is `null`. -/
def isNull : Value → Bool
  | .scalar .null => true
  | _ => false

/-- The text of a string. -/
def string? : Value → Option String
  | .scalar (.string s) => some s
  | _ => none

/-- The integer of a number written as one. -/
def int? : Value → Option Int
  | .scalar (.number (.integer n)) => some n
  | _ => none

/-- The truth value of `true` and `false`. -/
def bool? : Value → Option Bool
  | .scalar (.bool b) => some b
  | _ => none

/-- The items of an array. -/
def array? : Value → Option (List Value)
  | .array items => some items
  | _ => none

/-- The members of an object. -/
def object? : Value → Option (List (String × Value))
  | .object members => some members
  | _ => none

/-- The value of a key in members; of repeated keys the last counts. -/
def lookup? (key : String) (members : List (String × Value)) : Option Value :=
  (members.reverse.find? (·.1 == key)).map (·.2)

/-- Adds a member to members in the order of their keys, unless the key is there. -/
def insertMember (key : String) (v : Value) : List (String × Value) → List (String × Value)
  | [] => [(key, v)]
  | (k, w) :: rest =>
    if key = k then (k, w) :: rest
    else if key < k then (key, v) :: (k, w) :: rest
    else (k, w) :: insertMember key v rest

mutual

/-- A value with the members of its objects in the order of their keys, each key
once. -/
def sorted : Value → Value
  | .scalar s => .scalar s
  | .array items => .array (sortedItems items)
  | .object members => .object (sortedMembers members)

/-- Values, each with its members in order. -/
def sortedItems : List Value → List Value
  | [] => []
  | v :: rest => v.sorted :: sortedItems rest

/-- Members in the order of their keys; of repeated keys the last counts. -/
def sortedMembers : List (String × Value) → List (String × Value)
  | [] => []
  | (key, v) :: rest => insertMember key v.sorted (sortedMembers rest)

end

/-- The value of a key of an object. -/
def member? (v : Value) (key : String) : Option Value := v.object?.bind (lookup? key)

/-- The value of a key, unless it is `null`. -/
def given? (v : Value) (key : String) : Option Value :=
  (v.member? key).filter fun m => !m.isNull

end Value

/-- What a message says about a value that does not fit. -/
inductive Found where
  | scalar (value : Scalar)
  | list
  | map
  deriving Repr

/-- What a value is to a message. -/
def Value.found : Value → Found
  | .scalar s => .scalar s
  | .array _ => .list
  | .object _ => .map

/-- The wording of what was found. -/
def Found.message : Found → String
  | .scalar .null => "null"
  | .scalar (.bool b) => "boolean `" ++ toString b ++ "`"
  | .scalar (.number (.integer n)) => "integer `" ++ toString n ++ "`"
  | .scalar (.number (.double x)) => "floating point `" ++ Decimal.renderFloat x ++ "`"
  | .scalar (.string s) => "string " ++ Text.quote s
  | .list => "sequence"
  | .map => "map"

end DiagnosticRelay.Json
