import DiagnosticRelay.Json.Syntax

/-!
# JSON documents

A document is a text with the syntax tree of the value it starts with. Every
text is a document; what is wrong with it stands in the tree, or is what
follows the tree.

## Main definitions

* `Json.Document.ofString`: the document of a text.
* `Json.Document.value`: its value, to a limited depth.
-/

namespace DiagnosticRelay.Json

/-- Blanks of JSON texts. -/
def isSpace (c : Char) : Bool := c == ' ' || c == '\n' || c == '\t' || c == '\r'

/-- A place in a text: its offset and the characters from there on. -/
structure Place where
  offset : Nat
  rest : List Char

/-- Passes over blanks. -/
def skipSpace (offset : Nat) : List Char → Place
  | [] => ⟨offset, []⟩
  | c :: rest => if isSpace c then skipSpace (offset + 1) rest else ⟨offset, c :: rest⟩

/-- A fault as told when reading and when passing over. -/
structure Break where
  reading : Fault
  skipping : Fault

/-- A fault that both tell alike. -/
def Break.both (reason : Reason) (offset : Nat) : Break := ⟨⟨reason, offset⟩, ⟨reason, offset⟩⟩

/-- A tree, and the place after it unless its syntax breaks. -/
structure Grown (α : Type) where
  tree : α
  after : Except Break Place

/-- A node whose syntax breaks. -/
def Grown.broken (b : Break) : Grown Node := ⟨.broken b.reading b.skipping, .error b⟩

/-- Reads the rest of a word such as `true`. -/
def growWord (value : Scalar) (offset : Nat) : List Char → List Char → Grown Node
  | [], rest => ⟨.scalar value offset, .ok ⟨offset, rest⟩⟩
  | _ :: _, [] => Grown.broken (.both .endInValue offset)
  | c :: word, d :: rest =>
    if c = d then growWord value (offset + 1) word rest
    else Grown.broken (.both .wordExpected (offset + 1))

/-- Reads a number. -/
def growNumber (p : Place) : Grown Node :=
  match Number.read p.offset p.rest, Number.skip p.offset p.rest with
  | .ok r, _ => ⟨.scalar (.number r.value) r.offset, .ok ⟨r.offset, r.rest⟩⟩
  | .error fault, .ok s => ⟨.unreadable fault, .ok ⟨s.offset, s.rest⟩⟩
  | .error fault, .error skipping => Grown.broken ⟨fault, skipping⟩

/-- Reads a string after its opening quote: its text or why it has none. -/
def growQuoted (p : Place) : Grown (Except Fault String) :=
  match Quoted.read p.offset [] p.rest, Quoted.skip p.offset p.rest with
  | .ok r, _ => ⟨.ok r.value, .ok ⟨r.offset, r.rest⟩⟩
  | .error fault, .ok s => ⟨.error fault, .ok ⟨s.offset, s.rest⟩⟩
  | .error fault, .error skipping => ⟨.error fault, .error ⟨fault, skipping⟩⟩

/-- Reads a string value after its opening quote. -/
def growString (p : Place) : Grown Node :=
  let quoted := growQuoted p
  match quoted.after, quoted.tree with
  | .error b, _ => Grown.broken b
  | .ok q, .ok s => ⟨.scalar (.string s) q.offset, .ok q⟩
  | .ok q, .error fault => ⟨.unreadable fault, .ok q⟩

/-- Items after which the syntax breaks. -/
def Items.stopAt (reading skipping ending : Fault) (settled : Nat) : Grown Items :=
  ⟨.broken reading skipping ending settled, .error ⟨reading, skipping⟩⟩

/-- Members after which the syntax breaks. -/
def Members.stopAt (reading skipping : Fault) (settled : Nat) : Grown Members :=
  ⟨.broken reading skipping settled, .error ⟨reading, skipping⟩⟩

mutual

/-- Reads one value. The first argument bounds the depth of the recursion. -/
def growNode : Nat → Place → Grown Node
  | 0, p => Grown.broken (.both .nestedTooDeep p.offset)
  | fuel + 1, p =>
    let p := skipSpace p.offset p.rest
    match p.rest with
    | [] => Grown.broken (.both .endInValue p.offset)
    | 'n' :: rest => growWord .null (p.offset + 1) "ull".toList rest
    | 't' :: rest => growWord (.bool true) (p.offset + 1) "rue".toList rest
    | 'f' :: rest => growWord (.bool false) (p.offset + 1) "alse".toList rest
    | '"' :: rest => growString ⟨p.offset + 1, rest⟩
    | '[' :: rest =>
      let items := growItems fuel true ⟨p.offset + 1, rest⟩
      ⟨.array p.offset items.tree, items.after⟩
    | '{' :: rest =>
      let members := growMembers fuel true ⟨p.offset + 1, rest⟩
      ⟨.object p.offset members.tree, members.after⟩
    | c :: _ =>
      if c = '-' ∨ c.isDigit then growNumber p
      else Grown.broken (.both .valueExpected (p.offset + 1))

/-- Reads the items of an array from the place after the bracket (`first`) or
after an item. -/
def growItems : Nat → Bool → Place → Grown Items
  | 0, _, p => Items.stopAt ⟨.nestedTooDeep, p.offset⟩ ⟨.nestedTooDeep, p.offset⟩
      ⟨.nestedTooDeep, p.offset⟩ p.offset
  | fuel + 1, first, p =>
    let p := skipSpace p.offset p.rest
    match p.rest with
    | [] =>
      let fault : Fault := ⟨.endInList, p.offset⟩
      Items.stopAt fault fault fault p.offset
    | ']' :: rest => ⟨.close (p.offset + 1), .ok ⟨p.offset + 1, rest⟩⟩
    | c :: rest =>
      if first then growItem fuel p
      else if c = ',' then
        let q := skipSpace (p.offset + 1) rest
        match q.rest with
        | [] =>
          let fault : Fault := ⟨.endInValue, q.offset⟩
          Items.stopAt fault fault ⟨.trailingCharacters, q.offset⟩ q.offset
        | ']' :: _ =>
          Items.stopAt ⟨.trailingComma, q.offset + 1⟩ ⟨.valueExpected, q.offset + 1⟩
            ⟨.trailingComma, q.offset + 1⟩ q.offset
        | _ => growItem fuel q
      else
        let fault : Fault := ⟨.listSeparatorExpected, p.offset + 1⟩
        Items.stopAt fault fault ⟨.trailingCharacters, p.offset + 1⟩ p.offset

/-- Reads an item and what follows it. -/
def growItem : Nat → Place → Grown Items
  | 0, p => Items.stopAt ⟨.nestedTooDeep, p.offset⟩ ⟨.nestedTooDeep, p.offset⟩
      ⟨.nestedTooDeep, p.offset⟩ p.offset
  | fuel + 1, p =>
    let value := growNode fuel p
    match value.after with
    | .error b =>
      ⟨.item p.offset value.tree (.broken b.reading b.skipping b.reading p.offset), .error b⟩
    | .ok q =>
      let next := growItems fuel false q
      ⟨.item p.offset value.tree next.tree, next.after⟩

/-- Reads the members of an object from the place after the brace (`first`) or
after a member. -/
def growMembers : Nat → Bool → Place → Grown Members
  | 0, _, p => Members.stopAt ⟨.nestedTooDeep, p.offset⟩ ⟨.nestedTooDeep, p.offset⟩ p.offset
  | fuel + 1, first, p =>
    let p := skipSpace p.offset p.rest
    match p.rest with
    | [] => Members.stopAt ⟨.endInObject, p.offset⟩ ⟨.endInObject, p.offset⟩ p.offset
    | '}' :: rest => ⟨.close (p.offset + 1), .ok ⟨p.offset + 1, rest⟩⟩
    | c :: rest =>
      if first then
        if c = '"' then growMember fuel p.offset ⟨p.offset + 1, rest⟩
        else Members.stopAt ⟨.keyNotString, p.offset + 1⟩ ⟨.keyNotString, p.offset + 1⟩ p.offset
      else if c = ',' then
        let q := skipSpace (p.offset + 1) rest
        match q.rest with
        | [] => Members.stopAt ⟨.endInValue, q.offset⟩ ⟨.endInObject, q.offset⟩ p.offset
        | '"' :: after => growMember fuel p.offset ⟨q.offset + 1, after⟩
        | '}' :: _ =>
          Members.stopAt ⟨.trailingComma, q.offset + 1⟩ ⟨.keyNotString, q.offset + 1⟩ p.offset
        | _ => Members.stopAt ⟨.keyNotString, q.offset + 1⟩ ⟨.keyNotString, q.offset + 1⟩ p.offset
      else
        let fault : Fault := ⟨.objectSeparatorExpected, p.offset + 1⟩
        Members.stopAt fault fault p.offset

/-- Reads a member after the opening quote of its key, and what follows it. -/
def growMember : Nat → Nat → Place → Grown Members
  | 0, _, p => Members.stopAt ⟨.nestedTooDeep, p.offset⟩ ⟨.nestedTooDeep, p.offset⟩ p.offset
  | fuel + 1, comma, p =>
    let key := growQuoted p
    match key.after with
    | .error b => ⟨.broken b.reading b.skipping comma, .error b⟩
    | .ok q =>
      let q := skipSpace q.offset q.rest
      match q.rest with
      | ':' :: rest =>
        let value := growNode fuel ⟨q.offset + 1, rest⟩
        match value.after with
        | .error b =>
          ⟨.member comma key.tree q.offset value.tree (.broken b.reading b.skipping q.offset),
            .error b⟩
        | .ok r =>
          let next := growMembers fuel false r
          ⟨.member comma key.tree q.offset value.tree next.tree, next.after⟩
      | [] =>
        let fault : Fault := ⟨.endInObject, q.offset⟩
        ⟨.lone comma key.tree fault q.offset, .error ⟨fault, fault⟩⟩
      | c :: _ =>
        let fault : Fault := ⟨.colonExpected, q.offset + 1⟩
        ⟨.lone comma key.tree fault (if c = '}' then q.offset + 1 else q.offset),
          .error ⟨fault, fault⟩⟩

end

/-- A text as the value it starts with and the fault of what follows. -/
structure Document where
  root : Node
  trailing : Option Fault

/-- The document of a text. Each step of the recursion consumes a character or
is followed by one that does. -/
def Document.ofString (text : String) : Document :=
  let grown := growNode (4 * text.length + 8) ⟨0, text.toList⟩
  match grown.after with
  | .error _ => ⟨grown.tree, none⟩
  | .ok p =>
    let p := skipSpace p.offset p.rest
    match p.rest with
    | [] => ⟨grown.tree, none⟩
    | _ => ⟨grown.tree, some ⟨.trailingCharacters, p.offset + 1⟩⟩

/-- The value of a document in which at most `depth` brackets are open at once. -/
def Document.value (d : Document) (depth : Nat) : Except Fault Value := do
  let v ← d.root.value depth
  match d.trailing with
  | none => return v
  | some fault => throw fault

end DiagnosticRelay.Json
