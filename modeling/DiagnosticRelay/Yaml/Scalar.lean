import DiagnosticRelay.Yaml.Cursor

/-!
# Scalars of YAML

Plain, quoted and block scalars: the text between two line breaks is kept, the
breaks themselves are folded or kept as the style says. Malformed scalars have
no reading.

## Main definitions

* `Yaml.Scalar.plain?`, `Yaml.Scalar.quoted?`, `Yaml.Scalar.block?`: a scalar and
  the place after it.
-/

namespace DiagnosticRelay.Yaml

namespace Scalar

/-- A text read so far and the blanks and breaks behind it. -/
structure Draft where
  text : List Char := []
  blanks : List Char := []
  /-- Whether a line break was passed since the last text. -/
  broken : Bool := false
  firstBreak : List Char := []
  moreBreaks : List Char := []

namespace Draft

/-- The draft with a character behind its text. -/
def push (d : Draft) (c : Char) : Draft := { d with text := d.text ++ [c] }

/-- The draft with its blanks or breaks joined to its text: one line break is a
space, further ones stay. -/
def join (d : Draft) : Draft :=
  let gap :=
    if !d.broken then d.blanks
    else if d.firstBreak == ['\n'] then if d.moreBreaks.isEmpty then [' '] else d.moreBreaks
    else d.firstBreak ++ d.moreBreaks
  { text := d.text ++ gap }

/-- The draft after a blank. -/
def blank (d : Draft) (c : Char) : Draft :=
  if d.broken then d else { d with blanks := d.blanks ++ [c] }

/-- The draft after a line break. -/
def lineBreak (d : Draft) (text : List Char) : Draft :=
  if d.broken then { d with moreBreaks := d.moreBreaks ++ text }
  else { d with blanks := [], firstBreak := text, broken := true }

end Draft

/-- Passes blanks and line breaks. The number is the column below which a tab is
not allowed after a line break. -/
def gap? (indent : Nat) : Nat → Draft → Cursor → Option (Draft × Cursor)
  | 0, d, k => some (d, k)
  | fuel + 1, d, k =>
    match k.peek? with
    | none => some (d, k)
    | some c =>
      if isBlank c then
        if d.broken && k.column < indent && c == '\t' then none
        else gap? indent fuel (d.blank c) k.skip
      else if isBreak c then gap? indent fuel (d.lineBreak k.lineText) k.skipLine
      else some (d, k)

/-! ## Plain scalars -/

/-- Characters that end plain scalars in flow collections. -/
def isFlowMark (c : Char) : Bool := [',', '[', ']', '\x7b', '\x7d'].contains c

/-- Whether a plain scalar ends before the next character. -/
def endsPlain (flow : Bool) (k : Cursor) : Bool :=
  (k.sees ':' && k.spaceAt 1) || (flow && k.peek?.any isFlowMark)

/-- Whether a colon comes next that a flow collection does not allow. -/
def strayColon (flow : Bool) (k : Cursor) : Bool :=
  flow && k.sees ':' && (k.at? 1).any fun c => c == '?' || isFlowMark c

/-- Reads characters of a plain scalar up to a space or its end. -/
def plainRun? (flow : Bool) : Nat → Draft → Cursor → Option (Draft × Cursor)
  | 0, d, k => some (d, k)
  | fuel + 1, d, k =>
    match k.peek? with
    | none => some (d, k)
    | some c =>
      if isBlank c || isBreak c then some (d, k)
      else if strayColon flow k then none
      else if endsPlain flow k then some (d, k)
      else plainRun? flow fuel (d.join.push c) k.skip

/-- Reads a plain scalar, with the blanks and breaks behind it. -/
def plainLines? (flow : Bool) (indent : Nat) : Nat → Draft → Cursor → Option (Draft × Cursor)
  | 0, d, k => some (d, k)
  | fuel + 1, d, k =>
    if k.seesDocumentMarker || k.sees '#' then some (d, k)
    else do
      let (d, k) ← plainRun? flow (fuel + 1) d k
      if !(k.seesBlank || k.seesBreak) then return (d, k)
      let (d, k) ← gap? indent (fuel + 1) d k
      if !flow && k.column < indent then return (d, k)
      plainLines? flow indent fuel d k

/-- A plain scalar: its text, whether a line break follows it, and the place
after it. -/
def plain? (flow : Bool) (indent : Nat) (k : Cursor) : Option (List Char × Bool × Cursor) :=
  (plainLines? flow indent (k.rest.length + 1) {} k).map fun r => (r.1.text, r.1.broken, r.2)

/-! ## Quoted scalars -/

/-- The value of a hexadecimal digit. -/
def hexDigit? (c : Char) : Option Nat :=
  if c.isDigit then some (c.toNat - 48)
  else if 'a' ≤ c ∧ c ≤ 'f' then some (c.toNat - 87)
  else if 'A' ≤ c ∧ c ≤ 'F' then some (c.toNat - 55)
  else none

/-- The character of hexadecimal digits, `n` of them. -/
def hexChar? (n : Nat) (cs : List Char) : Option Char := do
  let digits := cs.take n
  if digits.length < n then none
  let code ← digits.foldlM (fun code c => (hexDigit? c).map fun d => code * 16 + d) 0
  if code < 0xD800 ∨ (0xDFFF < code ∧ code ≤ 0x10FFFF) then some (Char.ofNat code) else none

/-- The character of an escape after the backslash, and how many characters the
escape takes without it. -/
def escape? : List Char → Option (Char × Nat)
  | [] => none
  | c :: rest =>
    match c with
    | '0' => some ('\x00', 1)
    | 'a' => some ('\x07', 1)
    | 'b' => some ('\x08', 1)
    | 't' | '\t' => some ('\t', 1)
    | 'n' => some ('\n', 1)
    | 'v' => some ('\x0b', 1)
    | 'f' => some ('\x0c', 1)
    | 'r' => some ('\r', 1)
    | 'e' => some ('\x1b', 1)
    | ' ' | '"' | '/' | '\\' => some (c, 1)
    | 'N' => some ('\u0085', 1)
    | '_' => some ('\u00a0', 1)
    | 'L' => some ('\u2028', 1)
    | 'P' => some ('\u2029', 1)
    | 'x' => (hexChar? 2 rest).map fun d => (d, 3)
    | 'u' => (hexChar? 4 rest).map fun d => (d, 5)
    | 'U' => (hexChar? 8 rest).map fun d => (d, 9)
    | _ => none

/-- Reads characters of a quoted scalar up to a space or its closing quote. -/
def quotedRun? (quote : Char) : Nat → Draft → Cursor → Option (Draft × Cursor)
  | 0, d, k => some (d, k)
  | fuel + 1, d, k =>
    match k.rest with
    | [] => some (d, k)
    | c :: rest =>
      if isBlank c || isBreak c then some (d, k)
      else if quote == '\'' && c == '\'' && rest.head? == some '\'' then
        quotedRun? quote fuel (d.push '\'') (k.skipMany 2)
      else if c == quote then some (d, k)
      else if quote == '"' && c == '\\' then
        if rest.head?.any isBreak then some ({ d with broken := true }, k.skip.skipLine)
        else do
          let (e, n) ← escape? rest
          quotedRun? quote fuel (d.push e) (k.skipMany (n + 1))
      else quotedRun? quote fuel (d.push c) k.skip

/-- Reads a quoted scalar after its opening quote. -/
def quotedLines? (quote : Char) : Nat → Draft → Cursor → Option (List Char × Cursor)
  | 0, _, _ => none
  | fuel + 1, d, k =>
    if k.seesDocumentMarker || k.isEnd then none
    else do
      let (d, k) ← quotedRun? quote (fuel + 1) d k
      if k.sees quote then return (d.text, k.skip)
      let (d, k) ← gap? 0 (fuel + 1) d k
      quotedLines? quote fuel d.join k

/-- A quoted scalar and the place after it. -/
def quoted? (quote : Char) (k : Cursor) : Option (List Char × Cursor) :=
  quotedLines? quote (k.rest.length + 1) {} k.skip

/-! ## Block scalars -/

/-- What becomes of the line breaks at the end of a block scalar. -/
inductive Chomping where
  | strip
  | clip
  | keep
  deriving DecidableEq

/-- The header of a block scalar. -/
structure Header where
  chomping : Chomping := .clip
  /-- How much deeper than its surroundings the text stands, if it says. -/
  deeper : Option Nat := none

/-- Reads a chomping mark. -/
def chompingMark? : Option Char → Option Chomping
  | some '+' => some .keep
  | some '-' => some .strip
  | _ => none

/-- Reads a digit of the header; zero is no depth. -/
def depthMark? (k : Cursor) : Option (Option Nat × Cursor) :=
  match k.peek? with
  | some c =>
    if c == '0' then none
    else if c.isDigit then some (some (c.toNat - 48), k.skip)
    else some (none, k)
  | none => some (none, k)

/-- Reads the marks of a header in either order. -/
def header? (k : Cursor) : Option (Header × Cursor) :=
  match chompingMark? k.peek? with
  | some chomping => do
    let (deeper, k) ← depthMark? k.skip
    return ({ chomping, deeper }, k)
  | none => do
    let (deeper, k) ← depthMark? k
    match deeper, chompingMark? k.peek? with
    | some _, some chomping => return ({ chomping, deeper }, k.skip)
    | _, _ => return ({ deeper }, k)

/-- Passes indentation and empty lines. The indentation is at most `indent` when
it is known; otherwise the largest column seen is returned besides. -/
def emptyLines? (indent : Option Nat) :
    Nat → Nat → List Char → Cursor → Option (Nat × List Char × Cursor)
  | 0, deepest, breaks, k => some (deepest, breaks, k)
  | fuel + 1, deepest, breaks, k =>
    let spaces := (k.rest.takeWhile (· == ' ')).length
    let k := k.skipMany (match indent with
      | none => spaces
      | some n => min spaces (n - k.column))
    let deepest := max deepest k.column
    if indent.all (k.column < ·) && k.sees '\t' then none
    else if k.seesBreak then
      emptyLines? indent fuel deepest (breaks ++ k.lineText) k.skipLine
    else some (deepest, breaks, k)

/-- Reads the lines of a block scalar. `leadingBlank` tells whether the line
before starts with a blank. -/
def blockLines? (folded : Bool) (indent : Nat) :
    Nat → List Char → Bool → List Char → List Char → Cursor →
      Option (List Char × List Char × List Char × Cursor)
  | 0, text, _, firstBreak, moreBreaks, k => some (text, firstBreak, moreBreaks, k)
  | fuel + 1, text, leadingBlank, firstBreak, moreBreaks, k =>
    if k.column == indent && !k.isEnd then do
      let startsBlank := k.seesBlank
      let joined :=
        if folded && firstBreak == ['\n'] && !leadingBlank && !startsBlank then
          if moreBreaks.isEmpty then [' '] else moreBreaks
        else firstBreak ++ moreBreaks
      let line := k.rest.takeWhile (!isBreak ·)
      let k := k.skipMany line.length
      let firstBreak := k.lineText
      let (_, moreBreaks, k) ← emptyLines? (some indent) (fuel + 1) 0 [] k.skipLine
      blockLines? folded indent fuel (text ++ joined ++ line) startsBlank firstBreak moreBreaks k
    else some (text, firstBreak, moreBreaks, k)

/-- A block scalar and the place after it. The number is the indentation around
it, if there is any. -/
def block? (folded : Bool) (around : Option Nat) (k : Cursor) : Option (List Char × Cursor) := do
  let (header, k) ← header? k.skip
  let k ← k.finishLine?
  let fuel := k.rest.length + 1
  let given := header.deeper.map (around.getD 0 + ·)
  let (deepest, breaks, k) ← emptyLines? given fuel 0 [] k
  let indent := given.getD (max deepest (max 1 ((around.map (· + 1)).getD 0)))
  let (text, firstBreak, moreBreaks, k) ← blockLines? folded indent fuel [] false [] breaks k
  let ending := match header.chomping with
    | .strip => []
    | .clip => firstBreak
    | .keep => firstBreak ++ moreBreaks
  return (text ++ ending, k)

end Scalar

end DiagnosticRelay.Yaml
