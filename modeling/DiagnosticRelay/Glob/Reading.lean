import DiagnosticRelay.Glob.Basic

/-!
# Reading globs

The text of a glob is read from left to right; the first thing wrong with it is
what is reported, an unclosed group last.

## Main definitions

* `Glob.Fault`: what can be wrong with a glob.
* `Glob.parse`: the glob of a text.
-/

namespace DiagnosticRelay.Glob

/-- What can be wrong with the text of a glob. -/
inductive Fault where
  | unclosedClass
  | reversedRange (low high : Char)
  | unopenedGroup
  | unclosedGroup
  | danglingEscape
  deriving DecidableEq, Repr

/-- The wording of a fault. -/
def Fault.message : Fault → String
  | .unclosedClass => "unclosed character class; missing ']'"
  | .reversedRange low high =>
    "invalid range; '" ++ low.toString ++ "' > '" ++ high.toString ++ "'"
  | .unopenedGroup =>
    "unopened alternate group; missing '\x7b' (maybe escape '\x7d' with '[\x7d]'?)"
  | .unclosedGroup =>
    "unclosed alternate group; missing '\x7d' (maybe escape '\x7b' with '[\x7b]'?)"
  | .danglingEscape => "dangling '\\'"

/-- A class being read. The last range stands first. -/
structure OpenClass where
  negated : Bool
  ranges : List (Char × Char) := []
  /-- Whether a `-` after the last range may still extend it. -/
  extending : Bool := false
  /-- Whether nothing but the negation has been read. -/
  fresh : Bool := true

namespace OpenClass

/-- Extends the last range to a character. -/
def extendTo (c : Char) : List (Char × Char) → Except Fault (List (Char × Char))
  | [] => .ok [(c, c)]
  | (low, _) :: rest =>
    if c < low then .error (.reversedRange low c) else .ok ((low, c) :: rest)

/-- The class after a character that does not close it. -/
def push (k : OpenClass) (c : Char) : Except Fault OpenClass :=
  if k.extending then
    (extendTo c k.ranges).map fun ranges => { k with ranges, extending := false, fresh := false }
  else if c = '-' ∧ !k.fresh then .ok { k with extending := true }
  else .ok { k with ranges := (c, c) :: k.ranges, fresh := false }

/-- The token of a class; a `-` at its end is itself. -/
def token (k : OpenClass) : Token :=
  .oneOf k.negated ((if k.extending then ('-', '-') :: k.ranges else k.ranges).reverse)

end OpenClass

/-- A glob being read. Tokens and branches stand last first. -/
structure Reader where
  /-- The tokens of the branch being read. -/
  current : List Token := []
  /-- The branches read of the innermost group, and the groups around it: the
  branches of each read so far and the tokens before the inner group. -/
  groups : List (List (List Token) × List Token) := []
  /-- The class being read. -/
  openClass : Option OpenClass := none
  /-- The character before the next one. -/
  previous : Option Char := none

namespace Reader

/-- The reader after a token. -/
def push (r : Reader) (t : Token) : Reader := { r with current := t :: r.current }

/-- The reader after a character was passed. -/
def pass (r : Reader) (c : Char) : Reader := { r with previous := some c }

/-- Whether a group is open. -/
def inGroup (r : Reader) : Bool := !r.groups.isEmpty

/-- Opens a group. -/
def openGroup (r : Reader) : Reader :=
  { r with current := [], groups := ([], r.current) :: r.groups }

/-- Goes on to the next branch; outside groups a comma is itself. -/
def comma (r : Reader) : Reader :=
  match r.groups with
  | [] => r.push (.literal ',')
  | (branches, before) :: outer =>
    { r with current := [], groups := (r.current.reverse :: branches, before) :: outer }

/-- Closes a group. -/
def closeGroup (r : Reader) : Except Fault Reader :=
  match r.groups with
  | [] => .error .unopenedGroup
  | (branches, before) :: outer =>
    .ok { r with
      current := .choice (r.current.reverse :: branches).reverse :: before, groups := outer }

/-- Takes the last token back for one of directories, unless it is one already. -/
def widen (r : Reader) (t : Token) : Reader :=
  match r.current with
  | .directoriesBefore :: _ | .everythingBelow :: _ => r
  | _ :: before => { r with current := t :: before }
  | [] => r.push t

/-- Whether two stars may stand for directories after what was read. -/
def afterBoundary (r : Reader) : Bool :=
  r.previous == some '/' || (r.inGroup && (r.previous == some ',' || r.previous == some '\x7b'))

/-- Whether a character ends the branch being read. -/
def endsBranch (r : Reader) (c : Char) : Bool := r.inGroup && (c == ',' || c == '\x7d')

/-- What two stars are, from the character behind them. -/
inductive Stars where
  /-- Directories in front. -/
  | before
  /-- Directories between; the `/` behind belongs to them. -/
  | between
  /-- Everything below. -/
  | below
  /-- Two stars like any others. -/
  | plain
  deriving DecidableEq

/-- What two stars are before a character or the end. -/
def stars (r : Reader) : Option Char → Stars
  | none => if r.current.isEmpty then .before else if r.afterBoundary then .below else .plain
  | some c =>
    if r.current.isEmpty then if c = '/' then .before else .plain
    else if !r.afterBoundary then .plain
    else if r.endsBranch c then .below
    else if c = '/' then .between
    else .plain

/-- The reader after two stars. -/
def pushStars (r : Reader) : Stars → Reader
  | .before => r.push .directoriesBefore
  | .between => r.widen .directoriesBetween
  | .below => r.widen .everythingBelow
  | .plain => (r.push .many).push .many

/-- The reader after a character outside classes that stands for itself or
opens or closes something. -/
def take (r : Reader) (c : Char) : Except Fault Reader :=
  match c with
  | '?' => .ok (r.push .any)
  | '*' => .ok (r.push .many)
  | '[' => .ok { r with openClass := some { negated := false } }
  | '\x7b' => .ok r.openGroup
  | '\x7d' => r.closeGroup
  | ',' => .ok r.comma
  | c => .ok (r.push (.literal c))

/-- The reader after a character inside a class. -/
def takeInClass (r : Reader) (k : OpenClass) (c : Char) : Except Fault Reader :=
  if c = ']' ∧ !k.fresh then .ok { r.push k.token with openClass := none }
  else (k.push c).map fun k => { r with openClass := some k }

/-- Reads the characters of a glob. -/
def read (r : Reader) : List Char → Except Fault Reader
  | [] => if r.openClass.isSome then .error .unclosedClass else .ok r
  | c :: rest =>
    match r.openClass with
    | some k =>
      match r.takeInClass k c with
      | .error fault => .error fault
      | .ok r => (r.pass c).read rest
    | none =>
      match c, rest with
      | '\\', [] => .error .danglingEscape
      | '\\', d :: rest => ((r.push (.literal d)).pass d).read rest
      | '*', '*' :: '/' :: rest =>
        match r.stars (some '/') with
        | .plain => ((((r.pushStars .plain)).push (.literal '/')).pass '/').read rest
        | kind => ((r.pushStars kind).pass '/').read rest
      | '*', '*' :: rest => ((r.pushStars (r.stars rest.head?)).pass '*').read rest
      | '[', d :: rest =>
        if d = '!' ∨ d = '^' then
          { r.pass d with openClass := some { negated := true } }.read rest
        else
          match ({ negated := false } : OpenClass).push d with
          | .error fault => .error fault
          | .ok k => { r.pass d with openClass := some k }.read rest
      | c, rest =>
        match r.take c with
        | .error fault => .error fault
        | .ok r => (r.pass c).read rest

end Reader

/-- The glob of a text. -/
def parse (text : String) : Except Fault Glob :=
  match ({} : Reader).read text.toList with
  | .error fault => .error fault
  | .ok r => if r.inGroup then .error .unclosedGroup else .ok ⟨r.current.reverse⟩

/-- The wording of a fault of a text. -/
def Fault.messageFor (f : Fault) (text : String) : String :=
  "error parsing glob '" ++ text ++ "': " ++ f.message

end DiagnosticRelay.Glob
