/-!
# Places in a YAML text

YAML depends on columns: a cursor knows its line and column besides what is left
of the text.

## Main definitions

* `Yaml.Cursor`: a place in a text.
* `Yaml.isBlank`, `Yaml.isBreak`: blanks and line breaks.
* `Yaml.Cursor.skip`, `Yaml.Cursor.skipLine`: moving on.
-/

namespace DiagnosticRelay.Yaml

/-- Spaces and tabs. -/
def isBlank (c : Char) : Bool := c == ' ' || c == '\t'

/-- Characters that break lines. -/
def isBreak (c : Char) : Bool :=
  c == '\r' || c == '\n' || c == '\u0085' || c == '\u2028' || c == '\u2029'

/-- Characters of names. -/
def isWordChar (c : Char) : Bool := c.isAlphanum || c == '_' || c == '-'

/-- Whether a text may hold a character. -/
def isAllowed (c : Char) : Bool :=
  let n := c.toNat
  n == 0x9 || n == 0xA || n == 0xD || (0x20 ≤ n && n ≤ 0x7E) || n == 0x85
    || (0xA0 ≤ n && n ≤ 0xD7FF) || (0xE000 ≤ n && n ≤ 0xFFFD) || 0x10000 ≤ n

/-- A place in a text. -/
structure Cursor where
  rest : List Char
  index : Nat := 0
  line : Nat := 0
  column : Nat := 0

namespace Cursor

/-- The next character. -/
def peek? (k : Cursor) : Option Char := k.rest.head?

/-- The character `n` places on. -/
def at? (k : Cursor) (n : Nat) : Option Char := k.rest[n]?

/-- Whether nothing is left. -/
def isEnd (k : Cursor) : Bool := k.rest.isEmpty

/-- Whether a character comes next. -/
def sees (k : Cursor) (c : Char) : Bool := k.peek? == some c

/-- Whether a blank comes next. -/
def seesBlank (k : Cursor) : Bool := k.peek?.any isBlank

/-- Whether a line break comes next. -/
def seesBreak (k : Cursor) : Bool := k.peek?.any isBreak

/-- Whether a line break or the end comes `n` places on. -/
def breakAt (k : Cursor) (n : Nat) : Bool := (k.at? n).all isBreak

/-- Whether a blank, a line break or the end comes `n` places on. -/
def spaceAt (k : Cursor) (n : Nat) : Bool := (k.at? n).all fun c => isBlank c || isBreak c

/-- Passes a character within a line. -/
def skip (k : Cursor) : Cursor :=
  { k with rest := k.rest.tail, index := k.index + 1, column := k.column + 1 }

/-- Passes several characters within a line. -/
def skipMany (k : Cursor) (n : Nat) : Cursor :=
  { k with rest := k.rest.drop n, index := k.index + n, column := k.column + n }

/-- Passes the characters within a line that are of a class. -/
def skipWhile (k : Cursor) (p : Char → Bool) : Cursor :=
  k.skipMany (k.rest.takeWhile p).length

/-- Passes a line break; a carriage return and a line feed are one. -/
def skipLine (k : Cursor) : Cursor :=
  match k.rest with
  | '\r' :: '\n' :: rest => ⟨rest, k.index + 2, k.line + 1, 0⟩
  | c :: rest => if isBreak c then ⟨rest, k.index + 1, k.line + 1, 0⟩ else k
  | [] => k

/-- The text a line break stands for: most are line feeds. -/
def lineText (k : Cursor) : List Char :=
  match k.peek? with
  | none => []
  | some c =>
    if c == '\u2028' || c == '\u2029' then [c] else if isBreak c then ['\n'] else []

/-- Passes a comment, if one comes next. -/
def skipComment (k : Cursor) : Cursor :=
  if k.sees '#' then k.skipWhile (!isBreak ·) else k

/-- Passes blanks, a comment and the line break. Absent when anything else is
left on the line. -/
def finishLine? (k : Cursor) : Option Cursor :=
  let k := (k.skipWhile isBlank).skipComment
  if k.breakAt 0 then some k.skipLine else none

/-- Whether a document marker of three equal characters comes next. -/
def seesMarker (k : Cursor) (c : Char) : Bool :=
  k.column == 0 && k.rest.take 3 == [c, c, c] && k.spaceAt 3

/-- Whether a document starts or ends here. -/
def seesDocumentMarker (k : Cursor) : Bool := k.seesMarker '-' || k.seesMarker '.'

end Cursor

end DiagnosticRelay.Yaml
