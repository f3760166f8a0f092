import DiagnosticRelay.Yaml.Token

/-!
# Nodes of YAML

The tokens of a text as the one document it may hold: scalars, sequences and
mappings, with the names of anchors and aliases. Collections in block style are
closed by tokens of their own; the entries of a sequence may also stand at the
column of the mapping they belong to.

## Main definitions

* `Yaml.Node`: the parts of a document.
* `Yaml.Stream.ofTokens?`: the document of tokens.
-/

namespace DiagnosticRelay.Yaml

/-- A part of a document. -/
inductive Node where
  | alias (name : List Char)
  | scalar (anchor : Option (List Char)) (plain : Bool) (text : List Char)
  | sequence (anchor : Option (List Char)) (items : List Node)
  | mapping (anchor : Option (List Char)) (entries : List (Node × Node))

/-- What an absent node stands for. -/
def Node.absent : Node := .scalar none true []

/-- What a text holds. -/
inductive Stream where
  | empty
  | document (root : Node)

namespace Node

/-- What stands before a node, and the tokens behind it. -/
structure Properties where
  anchor : Option (List Char)
  /-- Whether there is a tag. -/
  tagged : Bool
  rest : List Token

/-- Whether a tag can be resolved with the given handles. -/
def isKnown (handles : List (List Char)) (handle : Option (List Char)) : Bool :=
  handle.all handles.contains

/-- The anchor and the tag before a node, in either order. -/
def properties? (handles : List (List Char)) : List Token → Option Properties
  | .anchor name :: .tag handle :: rest | .tag handle :: .anchor name :: rest =>
    if isKnown handles handle then some ⟨some name, true, rest⟩ else none
  | .anchor name :: rest => some ⟨some name, false, rest⟩
  | .tag handle :: rest => if isKnown handles handle then some ⟨none, true, rest⟩ else none
  | rest => some ⟨none, false, rest⟩

/-- Tokens that end the key or the value of a block mapping. -/
def endsBlockPart : Token → Bool
  | .key | .value | .blockEnd => true
  | _ => false

/-- Tokens that end an entry of a block sequence. -/
def endsBlockItem : Token → Bool
  | .blockEntry | .blockEnd => true
  | _ => false

/-- Tokens that end an entry of a sequence at the column of its mapping. -/
def endsPlainItem (t : Token) : Bool := endsBlockPart t || t == .blockEntry

/-- Tokens that end the key of a mapping in flow style. -/
def endsFlowKey (close : Token) (t : Token) : Bool := t == .value || t == .flowEntry || t == close

/-- Tokens that end the value of a mapping in flow style. -/
def endsFlowValue (close : Token) (t : Token) : Bool := t == .flowEntry || t == close

mutual

/-- Reads a node. `block` allows block collections, `plainItems` a sequence at
the column of the mapping around it. -/
def read? (handles : List (List Char)) : Nat → Bool → Bool → List Token →
    Option (Node × List Token)
  | 0, _, _, _ => none
  | fuel + 1, block, plainItems, ts =>
    match ts with
    | .alias name :: rest => some (.alias name, rest)
    | ts => do
      let p ← properties? handles ts
      match p.rest with
      | .scalar plain text :: rest => return (.scalar p.anchor plain text, rest)
      | .flowSequenceStart :: rest =>
        let (items, rest) ← flowItems? handles fuel true rest
        return (.sequence p.anchor items, rest)
      | .flowMappingStart :: rest =>
        let (entries, rest) ← flowEntries? handles fuel true rest
        return (.mapping p.anchor entries, rest)
      | .blockEntry :: rest =>
        if plainItems then
          let (items, rest) ← plainItems? handles fuel (.blockEntry :: rest)
          return (.sequence p.anchor items, rest)
        else if p.anchor.isSome || p.tagged then
          return (.scalar p.anchor true [], .blockEntry :: rest)
        else none
      | .blockSequenceStart :: rest =>
        if block then
          let (items, rest) ← blockItems? handles fuel rest
          return (.sequence p.anchor items, rest)
        else if p.anchor.isSome || p.tagged then
          return (.scalar p.anchor true [], .blockSequenceStart :: rest)
        else none
      | .blockMappingStart :: rest =>
        if block then
          let (entries, rest) ← blockEntries? handles fuel rest
          return (.mapping p.anchor entries, rest)
        else if p.anchor.isSome || p.tagged then
          return (.scalar p.anchor true [], .blockMappingStart :: rest)
        else none
      | rest => if p.anchor.isSome || p.tagged then return (.scalar p.anchor true [], rest) else none

/-- Reads a node unless the next token ends the place where it stands. -/
def readUnless? (handles : List (List Char)) : Nat → (Token → Bool) → Bool → Bool → List Token →
    Option (Node × List Token)
  | 0, _, _, _, _ => none
  | fuel + 1, ends, block, plainItems, ts =>
    if ts.head?.any ends then some (.absent, ts) else read? handles fuel block plainItems ts

/-- Reads the entries of a block sequence. -/
def blockItems? (handles : List (List Char)) : Nat → List Token → Option (List Node × List Token)
  | 0, _ => none
  | fuel + 1, .blockEntry :: rest => do
    let (item, rest) ← readUnless? handles fuel endsBlockItem true false rest
    let (items, rest) ← blockItems? handles fuel rest
    return (item :: items, rest)
  | _ + 1, .blockEnd :: rest => some ([], rest)
  | _ + 1, _ => none

/-- Reads the entries of a sequence at the column of its mapping. -/
def plainItems? (handles : List (List Char)) : Nat → List Token → Option (List Node × List Token)
  | 0, _ => none
  | fuel + 1, .blockEntry :: rest => do
    let (item, rest) ← readUnless? handles fuel endsPlainItem true false rest
    let (items, rest) ← plainItems? handles fuel rest
    return (item :: items, rest)
  | _ + 1, rest => some ([], rest)

/-- Reads the entries of a block mapping. -/
def blockEntries? (handles : List (List Char)) : Nat → List Token →
    Option (List (Node × Node) × List Token)
  | 0, _ => none
  | fuel + 1, .key :: rest => do
    let (key, rest) ← readUnless? handles fuel endsBlockPart true true rest
    let (value, rest) ← blockValue? handles fuel rest
    let (entries, rest) ← blockEntries? handles fuel rest
    return ((key, value) :: entries, rest)
  | _ + 1, .blockEnd :: rest => some ([], rest)
  | _ + 1, _ => none

/-- Reads the value of a block mapping. -/
def blockValue? (handles : List (List Char)) : Nat → List Token → Option (Node × List Token)
  | 0, _ => none
  | fuel + 1, .value :: rest => readUnless? handles fuel endsBlockPart true true rest
  | _ + 1, rest => some (.absent, rest)

/-- Reads the items of a flow sequence; `first` tells that none was read. -/
def flowItems? (handles : List (List Char)) : Nat → Bool → List Token →
    Option (List Node × List Token)
  | 0, _, _ => none
  | _ + 1, _, .flowSequenceEnd :: rest => some ([], rest)
  | fuel + 1, true, ts => do
    let (item, rest) ← flowItem? handles fuel ts
    let (items, rest) ← flowItems? handles fuel false rest
    return (item :: items, rest)
  | _ + 1, false, .flowEntry :: .flowSequenceEnd :: rest => some ([], rest)
  | fuel + 1, false, .flowEntry :: ts => do
    let (item, rest) ← flowItem? handles fuel ts
    let (items, rest) ← flowItems? handles fuel false rest
    return (item :: items, rest)
  | _ + 1, false, _ => none

/-- Reads an item of a flow sequence; a key makes it a mapping of one entry. -/
def flowItem? (handles : List (List Char)) : Nat → List Token → Option (Node × List Token)
  | 0, _ => none
  | fuel + 1, .key :: t :: rest => do
    let ends := endsFlowKey .flowSequenceEnd
    let (key, rest) ← if ends t then some (.absent, rest) else read? handles fuel false false (t :: rest)
    let (value, rest) ← flowValue? handles fuel .flowSequenceEnd rest
    return (.mapping none [(key, value)], rest)
  | fuel + 1, ts => read? handles fuel false false ts

/-- Reads the value of an entry in flow style. -/
def flowValue? (handles : List (List Char)) : Nat → Token → List Token →
    Option (Node × List Token)
  | 0, _, _ => none
  | fuel + 1, close, .value :: rest =>
    readUnless? handles fuel (endsFlowValue close) false false rest
  | _ + 1, _, rest => some (.absent, rest)

/-- Reads the entries of a flow mapping; `first` tells that none was read. -/
def flowEntries? (handles : List (List Char)) : Nat → Bool → List Token →
    Option (List (Node × Node) × List Token)
  | 0, _, _ => none
  | _ + 1, _, .flowMappingEnd :: rest => some ([], rest)
  | fuel + 1, true, ts => do
    let (entry, rest) ← flowPair? handles fuel ts
    let (entries, rest) ← flowEntries? handles fuel false rest
    return (entry :: entries, rest)
  | _ + 1, false, .flowEntry :: .flowMappingEnd :: rest => some ([], rest)
  | fuel + 1, false, .flowEntry :: ts => do
    let (entry, rest) ← flowPair? handles fuel ts
    let (entries, rest) ← flowEntries? handles fuel false rest
    return (entry :: entries, rest)
  | _ + 1, false, _ => none

/-- Reads an entry of a flow mapping; a node without a colon is a key alone. -/
def flowPair? (handles : List (List Char)) : Nat → List Token →
    Option ((Node × Node) × List Token)
  | 0, _ => none
  | fuel + 1, .key :: rest => do
    let (key, rest) ← readUnless? handles fuel (endsFlowKey .flowMappingEnd) false false rest
    let (value, rest) ← flowValue? handles fuel .flowMappingEnd rest
    return ((key, value), rest)
  | fuel + 1, ts => do
    let (key, rest) ← read? handles fuel false false ts
    return ((key, .absent), rest)

end

end Node

namespace Stream

/-- The directives of a document and the tokens behind them: the tag handles,
each at most once, and at most one version, which has to be 1.1 or 1.2. -/
def directives? : Bool → List (List Char) → List Token → Option (List (List Char) × List Token)
  | seen, handles, .versionDirective major minor :: rest =>
    if !seen && major == 1 && (minor == 1 || minor == 2) then directives? true handles rest else none
  | seen, handles, .tagDirective handle :: rest =>
    if handles.contains handle then none else directives? seen (handle :: handles) rest
  | _, handles, rest => some (handles, rest)

/-- The tag handles that need no directive. -/
def knownHandles : List (List Char) := [['!'], ['!', '!']]

/-- Tokens that end a document before it has any content. -/
def endsDocument : Token → Bool
  | .versionDirective _ _ | .tagDirective _ | .documentStart | .documentEnd | .streamEnd => true
  | _ => false

/-- The document of tokens that starts with directives or a marker. -/
def explicit? (ts : List Token) : Option (Node × List Token) := do
  let (handles, rest) ← directives? false [] ts
  match rest with
  | .documentStart :: rest =>
    if rest.head?.any endsDocument then return (.absent, rest)
    else Node.read? (handles ++ knownHandles) (8 * ts.length + 8) true false rest
  | _ => none

/-- The document of tokens: at most one, and nothing behind it. -/
def ofTokens? (ts : List Token) : Option Stream :=
  match ts with
  | [.streamEnd] => some .empty
  | ts => do
    let (root, rest) ←
      if ts.head?.any fun t => t matches .versionDirective _ _ | .tagDirective _ | .documentStart then
        explicit? ts
      else Node.read? knownHandles (8 * ts.length + 8) true false ts
    if rest.dropWhile (· == .documentEnd) == [.streamEnd] then return .document root else none

end Stream

end DiagnosticRelay.Yaml
