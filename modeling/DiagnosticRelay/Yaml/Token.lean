import DiagnosticRelay.Yaml.Scalar

/-!
# Tokens of YAML

A text as a sequence of tokens. Indentation becomes tokens of its own. A mapping
key is recognised only by the colon behind it, so each place where one may stand
is remembered with the number of its token until the colon comes or cannot come
any more.

## Main definitions

* `Yaml.Token`: the tokens.
* `Yaml.Token.ofText?`: the tokens of a text.
-/

namespace DiagnosticRelay.Yaml

/-- A token of YAML. -/
inductive Token where
  | versionDirective (major minor : Nat)
  | tagDirective (handle : List Char)
  | documentStart
  | documentEnd
  | streamEnd
  | blockSequenceStart
  | blockMappingStart
  | blockEnd
  | flowSequenceStart
  | flowSequenceEnd
  | flowMappingStart
  | flowMappingEnd
  | blockEntry
  | flowEntry
  | key
  | value
  | alias (name : List Char)
  | anchor (name : List Char)
  /-- A tag; one that is written in full has no handle. -/
  | tag (handle : Option (List Char))
  | scalar (plain : Bool) (text : List Char)
  deriving DecidableEq, Repr

/-- A place where a mapping key may have started. -/
structure PossibleKey where
  /-- How many tokens stand before it. -/
  number : Nat
  /-- Whether nothing but a key can stand there. -/
  required : Bool
  index : Nat
  line : Nat
  column : Nat

/-- The state of reading tokens. -/
structure Scanner where
  cursor : Cursor
  /-- The tokens read, last first. -/
  tokens : List Token := []
  /-- The columns of the open block collections, innermost first. -/
  indents : List Nat := []
  /-- For each open flow collection and the outermost level, innermost first,
  where a key may have started. -/
  keys : List (Option PossibleKey) := [none]
  keyAllowed : Bool := true

namespace Scanner

/-- Whether a flow collection is open. -/
def inFlow (s : Scanner) : Bool := 1 < s.keys.length

/-- The column of the innermost block collection. -/
def indent? (s : Scanner) : Option Nat := s.indents.head?

/-- Adds a token. -/
def push (s : Scanner) (t : Token) : Scanner := { s with tokens := t :: s.tokens }

/-- Adds a token and moves on. -/
def pushAt (s : Scanner) (t : Token) (k : Cursor) : Scanner := { s.push t with cursor := k }

/-- Adds a token behind the first `n` ones. -/
def insert (s : Scanner) (n : Nat) (t : Token) : Scanner :=
  { s with tokens := s.tokens.insertIdx (s.tokens.length - n) t }

/-- Closes the block collections that stand deeper than a column. -/
def unroll (s : Scanner) (column : Option Nat) : Scanner :=
  if s.inFlow then s
  else
    let isDeeper (indent : Nat) := column.all (· < indent)
    let closed := (s.indents.takeWhile isDeeper).length
    { s with
      indents := s.indents.drop closed
      tokens := List.replicate closed .blockEnd ++ s.tokens }

/-- Opens a block collection at a column, if it stands deeper than the one
around it; its token goes behind the first `n` ones. -/
def roll (s : Scanner) (column : Nat) (n : Nat) (t : Token) : Scanner :=
  if s.inFlow || !s.indent?.all (· < column) then s
  else { s.insert n t with indents := column :: s.indents }

/-- Opens a block collection at the cursor. -/
def rollHere (s : Scanner) (t : Token) : Scanner := s.roll s.cursor.column s.tokens.length t

/-- Gives up the possible key of the innermost level; a required one has to be
a key. -/
def dropKey? (s : Scanner) : Option Scanner :=
  match s.keys with
  | some key :: rest => if key.required then none else some { s with keys := none :: rest }
  | _ => some s

/-- Remembers that a key may start at the cursor. -/
def saveKey? (s : Scanner) : Option Scanner :=
  if !s.keyAllowed then some s
  else do
    let s ← s.dropKey?
    let k := s.cursor
    let key : PossibleKey := {
      number := s.tokens.length
      required := !s.inFlow && s.indent? == some k.column
      index := k.index
      line := k.line
      column := k.column }
    return { s with keys := some key :: s.keys.tail }

/-- Whether a possible key can still get its colon: it stands on the same line
and not too far away. -/
def isFresh (k : Cursor) (key : PossibleKey) : Bool :=
  k.line ≤ key.line && k.index ≤ key.index + 1024

/-- Gives up the possible keys that cannot get their colons any more. -/
def dropStaleKeys? (s : Scanner) : Option Scanner :=
  if s.keys.any fun key => key.any fun key => key.required && !isFresh s.cursor key then none
  else some { s with keys := s.keys.map fun key => key.filter (isFresh s.cursor) }

/-- Passes blanks, comments and line breaks before the next token. -/
def skipGap : Nat → Scanner → Scanner
  | 0, s => s
  | fuel + 1, s =>
    let k := if s.cursor.column == 0 && s.cursor.sees '\ufeff' then s.cursor.skip else s.cursor
    let tabs := s.inFlow || !s.keyAllowed
    let k := (k.skipWhile fun c => c == ' ' || (tabs && c == '\t')).skipComment
    if k.seesBreak then
      skipGap fuel { s with cursor := k.skipLine, keyAllowed := s.keyAllowed || !s.inFlow }
    else { s with cursor := k }

/-- The state between collections at the start of a line: everything closed. -/
def atMargin? (s : Scanner) : Option Scanner := do
  let s ← (s.unroll none).dropKey?
  return { s with keyAllowed := false }

/-! ## Directives, anchors and tags -/

/-- A number of a version. -/
def number? (k : Cursor) : Option (Nat × Cursor) :=
  let digits := k.rest.takeWhile Char.isDigit
  if digits.isEmpty || 9 < digits.length then none
  else some (digits.foldl (fun n d => n * 10 + (d.toNat - 48)) 0, k.skipMany digits.length)

/-- The value of a version directive. -/
def version? (k : Cursor) : Option (Token × Cursor) := do
  let (major, k) ← number? (k.skipWhile isBlank)
  if !k.sees '.' then none
  let (minor, k) ← number? k.skip
  return (.versionDirective major minor, k)

/-- A tag handle; `whole` asks for one that is closed. -/
def handle? (whole : Bool) (k : Cursor) : Option (List Char × Cursor) :=
  if !k.sees '!' then none
  else
    let name := k.skip.rest.takeWhile isWordChar
    let k := k.skipMany (name.length + 1)
    if k.sees '!' then some ('!' :: name ++ ['!'], k.skip)
    else if whole && !name.isEmpty then none
    else some ('!' :: name, k)

/-- How many octets an encoded character of a tag takes, by the first one. -/
def encodedWidth? (octet : Nat) : Option Nat :=
  if octet < 0x80 then some 1
  else if octet / 0x20 == 6 then some 2
  else if octet / 0x10 == 14 then some 3
  else if octet / 8 == 30 then some 4
  else none

/-- An octet in a tag. -/
def encodedOctet? : List Char → Option Nat
  | '%' :: a :: b :: _ => do return (← Scalar.hexDigit? a) * 16 + (← Scalar.hexDigit? b)
  | _ => none

/-- The rest of an encoded character of a tag. -/
def encodedTail? : Nat → Cursor → Option Cursor
  | 0, k => some k
  | n + 1, k => do
    let octet ← encodedOctet? k.rest
    if octet / 0x40 == 2 then encodedTail? n (k.skipMany 3) else none

/-- An encoded character of a tag. -/
def encodedChar? (k : Cursor) : Option Cursor := do
  let octet ← encodedOctet? k.rest
  let width ← encodedWidth? octet
  encodedTail? (width - 1) (k.skipMany 3)

/-- Characters of tags. -/
def isTagChar (verbatim : Bool) (c : Char) : Bool :=
  isWordChar c || ";/?:@&=+$.!~*'()".toList.contains c
    || (verbatim && [',', '[', ']'].contains c)

/-- Passes the characters of a tag; how many there were comes first. -/
def tagChars? (verbatim : Bool) : Nat → Nat → Cursor → Option (Nat × Cursor)
  | 0, n, k => some (n, k)
  | fuel + 1, n, k =>
    if k.sees '%' then (encodedChar? k).bind (tagChars? verbatim fuel (n + 1))
    else if k.peek?.any (isTagChar verbatim) then tagChars? verbatim fuel (n + 1) k.skip
    else some (n, k)

/-- Passes a tag after a head of `n` characters; it may not be empty. -/
def tagText? (verbatim : Bool) (n : Nat) (k : Cursor) : Option (Nat × Cursor) :=
  (tagChars? verbatim (k.rest.length + 1) n k).filter fun r => r.1 != 0

/-- The value of a tag directive. -/
def tagDirective? (k : Cursor) : Option (Token × Cursor) := do
  let (handle, k) ← handle? true (k.skipWhile isBlank)
  if !k.seesBlank then none
  let (_, k) ← tagText? true 0 (k.skipWhile isBlank)
  if !k.spaceAt 0 then none
  return (.tagDirective handle, k)

/-- A directive and its line. -/
def directive? (k : Cursor) : Option (Token × Cursor) := do
  let name := k.skip.rest.takeWhile isWordChar
  let k := k.skipMany (name.length + 1)
  if !k.spaceAt 0 then none
  let (t, k) ← match String.ofList name with
    | "YAML" => version? k
    | "TAG" => tagDirective? k
    | _ => none
  return (t, ← k.finishLine?)

/-- The name of an anchor or alias after its mark. -/
def name? (k : Cursor) : Option (List Char × Cursor) :=
  let name := k.skip.rest.takeWhile isWordChar
  let k := k.skipMany (name.length + 1)
  let ends := k.spaceAt 0 || k.peek?.any fun c => "?:,]\x7d%@\x60".toList.contains c
  if name.isEmpty || !ends then none else some (name, k)

/-- A tag in full, between angle brackets. -/
def verbatimTag? (k : Cursor) : Option (Token × Cursor) := do
  let (_, k) ← tagText? true 0 (k.skipMany 2)
  if k.sees '>' then some (.tag none, k.skip) else none

/-- A tag with a handle, or behind a single `!`. -/
def shortTag? (k : Cursor) : Option (Token × Cursor) := do
  let (handle, k) ← handle? false k
  if handle.length > 1 ∧ handle.getLast? = some '!' then
    let (_, k) ← tagText? false 0 k
    return (.tag (some handle), k)
  else
    let (n, k) ← tagText? false handle.length k
    return (.tag (if n = 1 then none else some ['!']), k)

/-- A tag; it ends at a space, or in flow collections at a comma. -/
def tag? (inFlow : Bool) (k : Cursor) : Option (Token × Cursor) := do
  let (t, k) ← if k.at? 1 = some '<' then verbatimTag? k else shortTag? k
  if k.spaceAt 0 || (inFlow && k.sees ',') then return (t, k) else none

/-! ## Tokens -/

/-- A token that may be a key. -/
def keyLike? (s : Scanner) (read : Cursor → Option (Token × Cursor)) : Option Scanner := do
  let s ← s.saveKey?
  let (t, k) ← read s.cursor
  return { s.pushAt t k with keyAllowed := false }

/-- The start of a flow collection. -/
def flowStart? (s : Scanner) (t : Token) : Option Scanner := do
  let s ← s.saveKey?
  return { s.pushAt t s.cursor.skip with keys := none :: s.keys, keyAllowed := true }

/-- The end of a flow collection. -/
def flowEnd? (s : Scanner) (t : Token) : Option Scanner := do
  let s ← s.dropKey?
  let keys := if s.inFlow then s.keys.tail else s.keys
  return { s.pushAt t s.cursor.skip with keys, keyAllowed := false }

/-- The comma of a flow collection. -/
def flowEntry? (s : Scanner) : Option Scanner := do
  let s ← s.dropKey?
  return { s.pushAt .flowEntry s.cursor.skip with keyAllowed := true }

/-- The dash of a block sequence. -/
def blockEntry? (s : Scanner) : Option Scanner := do
  if !s.inFlow && !s.keyAllowed then none
  let s ← (s.rollHere .blockSequenceStart).dropKey?
  return { s.pushAt .blockEntry s.cursor.skip with keyAllowed := true }

/-- The question mark of a key that is written as one. -/
def key? (s : Scanner) : Option Scanner := do
  if !s.inFlow && !s.keyAllowed then none
  let s ← (s.rollHere .blockMappingStart).dropKey?
  return { s.pushAt .key s.cursor.skip with keyAllowed := !s.inFlow }

/-- The colon of a value: what was a possible key is one. -/
def value? (s : Scanner) : Option Scanner :=
  match s.keys with
  | some key :: rest =>
    let s := (s.insert key.number .key).roll key.column key.number .blockMappingStart
    some { s.pushAt .value s.cursor.skip with keys := none :: rest, keyAllowed := false }
  | _ =>
    if !s.inFlow && !s.keyAllowed then none
    else
      let s := s.rollHere .blockMappingStart
      some { s.pushAt .value s.cursor.skip with keyAllowed := !s.inFlow }

/-- A block scalar. -/
def block? (s : Scanner) (folded : Bool) : Option Scanner := do
  let s ← s.dropKey?
  let (text, k) ← Scalar.block? folded s.indent? s.cursor
  return { s.pushAt (.scalar false text) k with keyAllowed := true }

/-- A quoted scalar. -/
def quoted? (s : Scanner) (quote : Char) : Option Scanner :=
  s.keyLike? fun k => (Scalar.quoted? quote k).map fun r => (.scalar false r.1, r.2)

/-- A plain scalar; a key may follow a line break behind it. -/
def plain? (s : Scanner) : Option Scanner := do
  let s ← s.saveKey?
  let indent := (s.indent?.map (· + 1)).getD 0
  let (text, broken, k) ← Scalar.plain? s.inFlow indent s.cursor
  return { s.pushAt (.scalar true text) k with keyAllowed := broken }

/-- Whether a plain scalar may start with a character. -/
def startsPlain (s : Scanner) (c : Char) : Bool :=
  let k := s.cursor
  if isBlank c || isBreak c then false
  else if c == '-' then !(k.at? 1).any isBlank
  else if c == '?' || c == ':' then !s.inFlow && !k.spaceAt 1
  else !(",[]\x7b\x7d#&*!|>'\"%@\x60".toList.contains c)

/-- Reads the next token after the gap before it. -/
def token? (s : Scanner) (c : Char) : Option Scanner :=
  let k := s.cursor
  let spaced := k.spaceAt 1
  if k.column == 0 && c == '%' then do
    let s ← s.atMargin?
    let (t, k) ← directive? s.cursor
    return s.pushAt t k
  else if k.seesMarker '-' then s.atMargin?.map (·.pushAt .documentStart (k.skipMany 3))
  else if k.seesMarker '.' then s.atMargin?.map (·.pushAt .documentEnd (k.skipMany 3))
  else match c with
    | '[' => s.flowStart? .flowSequenceStart
    | '\x7b' => s.flowStart? .flowMappingStart
    | ']' => s.flowEnd? .flowSequenceEnd
    | '\x7d' => s.flowEnd? .flowMappingEnd
    | ',' => s.flowEntry?
    | '*' => s.keyLike? fun k => (name? k).map fun r => (.alias r.1, r.2)
    | '&' => s.keyLike? fun k => (name? k).map fun r => (.anchor r.1, r.2)
    | '!' => s.keyLike? (tag? s.inFlow)
    | '\'' => s.quoted? '\''
    | '"' => s.quoted? '"'
    | _ =>
      if c == '-' && spaced then s.blockEntry?
      else if c == '?' && (s.inFlow || spaced) then s.key?
      else if c == ':' && (s.inFlow || spaced) then s.value?
      else if c == '|' && !s.inFlow then s.block? false
      else if c == '>' && !s.inFlow then s.block? true
      else if s.startsPlain c then s.plain?
      else none

/-- Ends the stream. -/
def finish? (s : Scanner) : Option (List Token) := do
  let s ← s.atMargin?
  return (s.push .streamEnd).tokens.reverse

/-- Reads the tokens of a text. -/
def scan? : Nat → Scanner → Option (List Token)
  | 0, _ => none
  | fuel + 1, s => do
    let s := s.skipGap (fuel + 1)
    let s ← s.dropStaleKeys?
    let s := s.unroll (some s.cursor.column)
    match s.cursor.peek? with
    | none => s.finish?
    | some c => scan? fuel (← s.token? c)

end Scanner

/-- The tokens of a text, if it has any reading at all. -/
def Token.ofText? (text : List Char) : Option (List Token) :=
  if text.all isAllowed then Scanner.scan? (text.length + 2) { cursor := { rest := text } } else none

end DiagnosticRelay.Yaml
