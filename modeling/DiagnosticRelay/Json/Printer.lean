import DiagnosticRelay.Json.Value

/-!
# Writing JSON

Values are written without spaces, members in their order. Control characters,
quotes and backslashes are escaped; every other character stands for itself.

## Main definitions

* `Json.Value.render`: the text of a value.
-/

namespace DiagnosticRelay.Json

/-- Four hexadecimal digits. -/
def hex4 (n : Nat) : List Char :=
  let digits := Text.hex n
  List.replicate (4 - digits.length) '0' ++ digits

/-- A character between the quotes of a JSON string. -/
def escapeChar (c : Char) : List Char :=
  match c with
  | '"' => ['\\', '"']
  | '\\' => ['\\', '\\']
  | '\n' => ['\\', 'n']
  | '\r' => ['\\', 'r']
  | '\t' => ['\\', 't']
  | c => if c.toNat < 0x20 then '\\' :: 'u' :: hex4 c.toNat else [c]

/-- A JSON string. -/
def renderString (s : String) : String :=
  String.ofList ('"' :: s.toList.flatMap escapeChar ++ ['"'])

/-- The text of a scalar. -/
def Scalar.render : Scalar → String
  | .null => "null"
  | .bool b => toString b
  | .number (.integer n) => toString n
  | .number (.double x) => if x.isFinite then Decimal.renderFloat x else "null"
  | .string s => renderString s

mutual

/-- The text of a value. -/
def Value.render : Value → String
  | .scalar s => s.render
  | .array items => "[" ++ renderItems items ++ "]"
  | .object members => "\x7b" ++ renderMembers members ++ "\x7d"

/-- The texts of values with commas between them. -/
def renderItems : List Value → String
  | [] => ""
  | [v] => v.render
  | v :: w :: rest => v.render ++ "," ++ renderItems (w :: rest)

/-- The texts of members with commas between them. -/
def renderMembers : List (String × Value) → String
  | [] => ""
  | [(k, v)] => renderString k ++ ":" ++ v.render
  | (k, v) :: m :: rest => renderString k ++ ":" ++ v.render ++ "," ++ renderMembers (m :: rest)

end

end DiagnosticRelay.Json
