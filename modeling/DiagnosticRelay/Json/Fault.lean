/-!
# Faults of JSON texts

A fault names what is wrong and the offset, in octets, that is reported. A
position is the line and the column of an offset: lines count from one, columns
count the octets since the last line feed.

## Main definitions

* `Json.Reason`: what can be wrong with a text.
* `Json.Fault`: a reason with its offset.
* `Json.Position`: line and column.
-/

namespace DiagnosticRelay.Json

/-- What can be wrong with a JSON text. -/
inductive Reason where
  | endInValue
  | endInList
  | endInObject
  | endInString
  | valueExpected
  | wordExpected
  | colonExpected
  | listSeparatorExpected
  | objectSeparatorExpected
  | keyNotString
  | trailingComma
  | trailingCharacters
  | malformedNumber
  | numberOutOfRange
  | unknownEscape
  | loneSurrogate
  | escapeCutShort
  | controlCharacter
  | nestedTooDeep
  deriving DecidableEq, Repr

/-- The wording of a reason. -/
def Reason.message : Reason → String
  | .endInValue => "EOF while parsing a value"
  | .endInList => "EOF while parsing a list"
  | .endInObject => "EOF while parsing an object"
  | .endInString => "EOF while parsing a string"
  | .valueExpected => "expected value"
  | .wordExpected => "expected ident"
  | .colonExpected => "expected `:`"
  | .listSeparatorExpected => "expected `,` or `]`"
  | .objectSeparatorExpected => "expected `,` or `\x7d`"
  | .keyNotString => "key must be a string"
  | .trailingComma => "trailing comma"
  | .trailingCharacters => "trailing characters"
  | .malformedNumber => "invalid number"
  | .numberOutOfRange => "number out of range"
  | .unknownEscape => "invalid escape"
  | .loneSurrogate => "lone leading surrogate in hex escape"
  | .escapeCutShort => "unexpected end of hex escape"
  | .controlCharacter => "control character (\\u0000-\\u001F) found while parsing a string"
  | .nestedTooDeep => "recursion limit exceeded"

/-- A reason and the offset in octets it is reported at. -/
structure Fault where
  reason : Reason
  offset : Nat
  deriving DecidableEq, Repr

/-- A place in a text as people count it. -/
structure Position where
  line : Nat
  column : Nat
  deriving DecidableEq, Repr

/-- Walks to an offset, given the current offset, the line and its start. -/
def Position.walk (target offset line start : Nat) : List Char → Position
  | [] => ⟨line, target - start⟩
  | c :: rest =>
    let after := offset + c.utf8Size
    if after ≤ target then
      if c = '\n' then walk target after (line + 1) after rest
      else walk target after line start rest
    else ⟨line, target - start⟩

/-- The position of an offset in a text. -/
def Position.ofOffset (text : String) (offset : Nat) : Position :=
  Position.walk offset 0 1 0 text.toList

/-- A position as messages end with it. -/
def Position.message (p : Position) : String :=
  " at line " ++ toString p.line ++ " column " ++ toString p.column

end DiagnosticRelay.Json
