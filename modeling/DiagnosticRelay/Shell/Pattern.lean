/-!
# Patterns of the shell

A pattern stands for texts: `?` for any character, `*` for any characters,
brackets for one character of a class. A quoted character stands for itself.
What a token means is given by the ends of a text that it may leave.

## Main definitions

* `Shell.Letter`: a character and whether it was quoted.
* `Shell.Pattern.ofLetters`: the pattern of a word.
* `Shell.Pattern.after`: the ends of a text that a pattern may leave.
* `Shell.Pattern.matches`: whether a pattern stands for a text.
-/

namespace DiagnosticRelay.Shell

/-- A character of a word, and whether it was quoted. -/
structure Letter where
  char : Char
  quoted : Bool
  deriving DecidableEq, Repr

/-- The characters of letters. -/
def charsOf (letters : List Letter) : List Char := letters.map Letter.char

/-- A part of a pattern. -/
inductive PatternToken where
  | letter (c : Char)
  | any
  | many
  | oneOf (negated : Bool) (ranges : List (Char × Char))
  deriving DecidableEq, Repr

/-- A pattern. -/
abbrev Pattern := List PatternToken

namespace Pattern

/-- The ranges of a class up to its bracket, and what follows it. A bracket that
comes first is one of the class. -/
def ranges? : Nat → Bool → List Letter → Option (List (Char × Char) × List Letter)
  | 0, _, _ => none
  | _ + 1, _, [] => none
  | fuel + 1, isFirst, a :: rest =>
    if a.char = ']' ∧ !a.quoted ∧ !isFirst then some ([], rest)
    else match rest with
      | hyphen :: b :: more =>
        if hyphen.char = '-' ∧ !hyphen.quoted ∧ !(b.char = ']' ∧ !b.quoted) then
          (ranges? fuel false more).map fun r => ((a.char, b.char) :: r.1, r.2)
        else (ranges? fuel false rest).map fun r => ((a.char, a.char) :: r.1, r.2)
      | _ => (ranges? fuel false rest).map fun r => ((a.char, a.char) :: r.1, r.2)

/-- Reads a class after its opening bracket. -/
def class? (letters : List Letter) : Option (PatternToken × List Letter) :=
  let negated := match letters with
    | c :: _ => (c.char == '!' || c.char == '^') && !c.quoted
    | [] => false
  (ranges? (letters.length + 1) true (if negated then letters.tail else letters)).map fun r =>
    (.oneOf negated r.1, r.2)

/-- Reads a pattern. A bracket that opens no class stands for itself. -/
def read : Nat → List Letter → Pattern
  | 0, _ => []
  | _ + 1, [] => []
  | fuel + 1, a :: rest =>
    if a.quoted then .letter a.char :: read fuel rest
    else if a.char = '?' then .any :: read fuel rest
    else if a.char = '*' then .many :: read fuel rest
    else if a.char = '[' then
      match class? rest with
      | some (token, rest) => token :: read fuel rest
      | none => .letter a.char :: read fuel rest
    else .letter a.char :: read fuel rest

/-- The pattern of a word. -/
def ofLetters (letters : List Letter) : Pattern := read (letters.length + 1) letters

/-- Whether a pattern stands for one text only. -/
def isPlain (p : Pattern) : Bool :=
  p.all fun
    | .letter _ => true
    | _ => false

/-- All ends of a text, from the whole of it to nothing. -/
def ends : List Char → List (List Char)
  | [] => [[]]
  | c :: rest => (c :: rest) :: ends rest

/-- The ends of a text that a token may leave. -/
def afterToken : PatternToken → List Char → List (List Char)
  | .letter _, [] | .any, [] | .oneOf .., [] => []
  | .letter c, d :: rest => if c = d then [rest] else []
  | .any, _ :: rest => [rest]
  | .many, text => ends text
  | .oneOf negated ranges, d :: rest =>
    if (ranges.any fun r => r.1 ≤ d && d ≤ r.2) != negated then [rest] else []

/-- The ends that a pattern may leave of any of the texts. -/
def afterAll : Pattern → List (List Char) → List (List Char)
  | [], texts => texts
  | token :: p, texts => afterAll p (texts.flatMap (afterToken token)).eraseDups

/-- The ends of a text that a pattern may leave. -/
def after (p : Pattern) (text : List Char) : List (List Char) := afterAll p [text]

/-- Whether a pattern stands for a text. -/
def «matches» (p : Pattern) (text : List Char) : Bool := (p.after text).any List.isEmpty

/-- A text without what a pattern matches at its start: the longest or the
shortest piece. -/
def dropStart (p : Pattern) (longest : Bool) (text : List Char) : List Char :=
  let rests := p.after text
  let better (a b : List Char) : List Char :=
    if longest then (if b.length < a.length then b else a)
    else if a.length < b.length then b else a
  match rests with
  | [] => text
  | rest :: rests => rests.foldl better rest

/-- A text without what a pattern matches at its end: the longest or the
shortest piece. -/
def dropEnd (p : Pattern) (longest : Bool) (text : List Char) : List Char :=
  let pieces := (ends text).filter p.matches
  match if longest then pieces.head? else pieces.getLast? with
  | some piece => text.take (text.length - piece.length)
  | none => text

end Pattern

end DiagnosticRelay.Shell
