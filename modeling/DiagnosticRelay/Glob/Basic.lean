import DiagnosticRelay.Text.Utf8

/-!
# Globs

A glob describes whole texts, octet by octet. What a token means is given by the
remainders: from a text, a token may leave any of several of its ends. A glob
matches a text when it may leave nothing.

## Main definitions

* `Glob.Token`: the parts of a glob.
* `Glob.Token.after`: the remainders a token may leave.
* `Glob.matches`: whether a glob matches a text.
-/

namespace DiagnosticRelay

namespace Glob

/-- The octet of `/`. -/
def slash : UInt8 := 0x2F

/-- A part of a glob. -/
inductive Token where
  /-- A character itself. -/
  | literal (c : Char)
  /-- Any one octet. -/
  | any
  /-- Any octets. -/
  | many
  /-- Any directories in front, or none. -/
  | directoriesBefore
  /-- A `/`, or any directories between two. -/
  | directoriesBetween
  /-- Anything below a directory. -/
  | everythingBelow
  /-- One octet in ranges of characters, or outside them. -/
  | oneOf (negated : Bool) (ranges : List (Char × Char))
  /-- One of several branches. -/
  | choice (branches : List (List Token))

/-- All ends of a text, from the whole of it to nothing. -/
def ends : Octets → List Octets
  | [] => [[]]
  | b :: rest => (b :: rest) :: ends rest

/-- The ends of a text that follow a `/`. -/
def endsBelow : Octets → List Octets
  | [] => []
  | b :: rest => if b = slash then rest :: endsBelow rest else endsBelow rest

/-- The rest of a text after the octets of another. -/
def strip? : Octets → Octets → Option Octets
  | [], text => some text
  | _ :: _, [] => none
  | b :: expected, c :: text => if b = c then strip? expected text else none

/-- The ranges of octets that a range of characters stands for: the octets of
its ends, and what lies between the last octet of the start and the first octet
of the end. -/
def octetRanges (range : Char × Char) : List (UInt8 × UInt8) :=
  let single (bs : Octets) := bs.map fun b => (b, b)
  let low := Octets.ofString (String.singleton range.1)
  if range.1 = range.2 then single low
  else
    let high := Octets.ofString (String.singleton range.2)
    single low.dropLast ++ [(low.getLast?.getD 0, high.head?.getD 0)] ++ single high.tail

/-- Whether an octet is in ranges of characters. -/
def inRanges (ranges : List (Char × Char)) (b : UInt8) : Bool :=
  (ranges.flatMap octetRanges).any fun r => r.1 ≤ b && b ≤ r.2

mutual

/-- Whether a token stands for nothing at all. -/
def Token.isVoid : Token → Bool
  | .choice branches => branchesVoid branches
  | _ => false

/-- Whether every token stands for nothing at all. -/
def tokensVoid : List Token → Bool
  | [] => true
  | t :: ts => t.isVoid && tokensVoid ts

/-- Whether every branch stands for nothing at all. -/
def branchesVoid : List (List Token) → Bool
  | [] => true
  | branch :: branches => tokensVoid branch && branchesVoid branches

end

mutual

/-- What a token may leave of a text. -/
def Token.after : Token → Octets → List Octets
  | .literal c, text => (strip? (Octets.ofString (String.singleton c)) text).toList
  | .any, text => text.tail?.toList
  | .many, text => ends text
  | .directoriesBefore, text => text :: endsBelow text
  | .directoriesBetween, text =>
    match text with
    | b :: rest => if b = slash then rest :: endsBelow rest else []
    | [] => []
  | .everythingBelow, text =>
    match text with
    | b :: rest => if b = slash then ends rest else []
    | [] => []
  | .oneOf negated ranges, text =>
    match text with
    | b :: rest => if inRanges ranges b != negated then [rest] else []
    | [] => []
  | .choice branches, text => if branchesVoid branches then [text] else afterBranches branches text

/-- What tokens in a row may leave of any of the texts. -/
def afterTokens : List Token → List Octets → List Octets
  | [], texts => texts
  | t :: ts, texts => afterTokens ts (texts.flatMap t.after).eraseDups

/-- What any of the branches that stand for something may leave of a text. -/
def afterBranches : List (List Token) → Octets → List Octets
  | [], _ => []
  | branch :: branches, text =>
    (if tokensVoid branch then [] else afterTokens branch [text]) ++ afterBranches branches text

end

end Glob

/-- A glob. -/
structure Glob where
  tokens : List Glob.Token

namespace Glob

/-- Whether a glob matches a text. A glob of nothing but directories in front
matches everything. -/
def «matches» (g : Glob) (text : Octets) : Bool :=
  match g.tokens with
  | [.directoriesBefore] => true
  | tokens => (afterTokens tokens [text]).any List.isEmpty

end Glob

end DiagnosticRelay
