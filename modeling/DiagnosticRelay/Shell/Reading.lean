import DiagnosticRelay.Shell.Command

/-!
# Reading shell commands

A shell reads and runs its text line by line: what is wrong on a later line
does not keep the earlier ones from running.

## Main definitions

* `Shell.Source`: what is left of a text.
* `Shell.Source.line?`: the commands of the next line.
-/

namespace DiagnosticRelay.Shell

/-- What is left of a text, and the line it is on. -/
structure Source where
  rest : List Char
  line : Nat := 1
  /-- Lines taken out of the text behind the one it is on. -/
  taken : Nat := 0

/-- Reading something off a text. -/
abbrev Reader (α : Type) := Source → Except Fault (α × Source)

namespace Source

/-- A flaw at a place. -/
def fail {α : Type} (s : Source) (flaw : Flaw) : Except Fault α := .error ⟨flaw, s.line⟩

/-- Passes characters. -/
def drop (s : Source) (n : Nat) : Source :=
  match (s.rest.take n).count '\n' with
  | 0 => { s with rest := s.rest.drop n }
  | lines => ⟨s.rest.drop n, s.line + lines + s.taken, 0⟩

/-- Characters that end a word. -/
def endsWord (c : Char) : Bool := " \t\n;&|<>()".toList.contains c

/-- Passes spaces, joined lines and a comment. -/
def skipSpace (line : Nat) : List Char → List Char × Nat
  | '\\' :: '\n' :: rest => skipSpace (line + 1) rest
  | '#' :: rest => (rest.dropWhile (· != '\n'), line)
  | c :: rest => if c = ' ' ∨ c = '\t' then skipSpace line rest else (c :: rest, line)
  | [] => ([], line)

/-- The place after spaces. -/
def skip (s : Source) : Source :=
  let r := skipSpace s.line s.rest
  { s with rest := r.1, line := r.2 }

/-- The place after spaces and line ends. -/
def skipLines : Nat → Source → Source
  | 0, s => s
  | fuel + 1, s =>
    let s := s.skip
    match s.rest with
    | '\n' :: _ => skipLines fuel (s.drop 1)
    | _ => s

/-- The place after spaces and line ends. -/
def skipAll (s : Source) : Source := s.skipLines (s.rest.length + 1)

/-- The name of the token that comes next, if there is one. -/
def tokenName? (s : Source) : Option String :=
  match s.rest with
  | [] => none
  | c :: rest =>
    let doubled := rest.head? == some c && c != '(' && c != ')'
    some (if c = '\n' then "newline" else if c = '<' ∨ c = '>' then "redirection"
      else if endsWord c then String.ofList (['"', c] ++ (if doubled then [c] else []) ++ ['"'])
      else "word")

/-- The flaw of the token that comes next, where another one was expected. -/
def tokenFor (s : Source) (expected : Option String) : Flaw :=
  match s.tokenName? with
  | some token => .unexpected token expected
  | none => .endOfFile expected

/-- The flaw of the token that comes next. -/
def token (s : Source) : Flaw := s.tokenFor none

/-- The letters of the word that comes next, if they are all there is of it. -/
def plainWord (s : Source) : List Char :=
  let letters := s.rest.takeWhile fun c => c.isAlphanum || c == '\x7b' || c == '\x7d' || c == '!'
  match s.rest.drop letters.length with
  | [] => letters
  | c :: _ => if endsWord c then letters else []

/-- Whether a keyword comes next. -/
def seesWord (s : Source) (word : String) : Bool := s.plainWord == word.toList

/-- The words that end a list of commands. -/
def closers : List String :=
  ["then", "else", "elif", "fi", "do", "done", "esac", "in", "\x7d"]

/-- Whether something that ends a list of commands comes next. -/
def seesCloser (s : Source) : Bool :=
  s.rest.isEmpty || s.rest.head? == some ')' || [';', ';'].isPrefixOf s.rest || closers.any s.seesWord

/-- The flaw of the token that comes next, where a command was expected. -/
def tokenOfCommand (s : Source) : Flaw :=
  if closers.any s.seesWord then .unexpected ("\"" ++ String.ofList s.plainWord ++ "\"") none
  else s.token

/-- Whether characters start an assignment: a name and `=`. -/
def assignment? (cs : List Char) : Option (List Char) :=
  let name := cs.takeWhile fun c => c.isAlphanum || c == '_'
  match name, cs.drop name.length with
  | c :: _, '=' :: _ => if c.isDigit then none else some name
  | _, _ => none

/-- Whether a character is the name of a special parameter. -/
def isSpecial (c : Char) : Bool := c.isDigit || "#?$@*!-".toList.contains c

/-- The letters of a name, if any. -/
def nameAt (cs : List Char) : List Char :=
  match cs with
  | c :: _ => if c.isAlpha || c == '_' then cs.takeWhile fun c => c.isAlphanum || c == '_' else []
  | [] => []

/-- The name of a parameter without braces. -/
def parameterName (cs : List Char) : List Char :=
  match nameAt cs, cs with
  | [], c :: _ => if isSpecial c then [c] else []
  | name, _ => name

/-- The name of a parameter in braces. -/
def bracedName (cs : List Char) : List Char :=
  match cs.takeWhile Char.isDigit with
  | [] => parameterName cs
  | digits => digits

/-- Joins neighbouring texts of one kind. -/
def joinText (part : Part) (parts : List Part) : List Part :=
  match part, parts with
  | .text a q, .text b r :: rest => if q == r then .text (a ++ b) q :: rest else part :: parts
  | _, _ => part :: parts

/-- Where a part stands. -/
inductive Context where
  | plain
  | doubleQuoted
  /-- In the braces of a parameter. -/
  | braces (quoted : Bool)
  /-- In an arithmetic expression, with the number of open parentheses. -/
  | arithmetic (depth : Nat)
  /-- In a text that is input. -/
  | document
  deriving DecidableEq

/-- Whether the results of parts are kept together. -/
def Context.isQuoted : Context → Bool
  | .plain => false
  | .doubleQuoted => true
  | .braces quoted => quoted
  | .arithmetic _ | .document => true

/-- Whether parts end before a character. -/
def Context.endsAt (k : Context) (c : Char) : Bool :=
  match k with
  | .plain => endsWord c
  | .doubleQuoted => c == '"'
  | .braces _ => c == '\x7d'
  | .arithmetic depth => depth == 0 && c == ')'
  | .document => false

/-- The context after a character that is text. -/
def Context.after (k : Context) (c : Char) : Context :=
  match k with
  | .arithmetic depth =>
    if c = '(' then .arithmetic (depth + 1) else if c = ')' then .arithmetic (depth - 1) else k
  | k => k

/-- Whether a backslash takes the meaning of a character. -/
def Context.escapes (k : Context) (c : Char) : Bool :=
  match k with
  | .plain => true
  | .doubleQuoted | .arithmetic _ => "$\x60\"\\".toList.contains c
  | .document => "$\x60\\".toList.contains c
  | .braces quoted => !quoted || "$\x60\"\\\x7d".toList.contains c

/-- The text of an old-style substitution up to its end. -/
def backquoted : List Char → Option (List Char × List Char)
  | [] => none
  | '\\' :: c :: rest =>
    (backquoted rest).map fun r =>
      (if c = '\x60' ∨ c = '\\' ∨ c = '$' then c :: r.1 else '\\' :: c :: r.1, r.2)
  | c :: rest => if c = '\x60' then some ([], rest) else (backquoted rest).map fun r => (c :: r.1, r.2)

/-- The file descriptor before a redirection. -/
def descriptor? (s : Source) : Option (Nat × Source) :=
  match s.rest with
  | c :: d :: _ =>
    if c.isDigit ∧ (d = '<' ∨ d = '>') then some (c.toNat - 48, s.drop 1)
    else if c = '<' then some (0, s) else if c = '>' then some (1, s) else none
  | [c] => if c = '<' then some (0, s) else if c = '>' then some (1, s) else none
  | [] => none

/-- The direction of a redirection. -/
def direction (s : Source) : Direction × Source :=
  match s.rest with
  | '<' :: '<' :: '-' :: _ => (.document, s.drop 3)
  | '<' :: '<' :: _ => (.document, s.drop 2)
  | '<' :: '>' :: _ => (.input, s.drop 2)
  | '>' :: '>' :: _ => (.append, s.drop 2)
  | '>' :: '&' :: _ | '<' :: '&' :: _ => (.duplicate, s.drop 2)
  | '>' :: '|' :: _ => (.output, s.drop 2)
  | '>' :: _ => (.output, s.drop 1)
  | _ => (.input, s.drop 1)

/-- Passes a keyword. -/
def keyword (word : String) : Reader Unit := fun s =>
  let s := s.skipAll
  if s.seesWord word then .ok ((), s.drop word.length)
  else if closers.any s.seesWord then
    s.fail (.unexpected ("\"" ++ String.ofList s.plainWord ++ "\"") (some word))
  else s.fail (s.tokenFor (some word))

/-- The lines of a text that is input up to its delimiter, and what follows it. -/
def documentLines (stripTabs : Bool) (delimiter : List Char) : Nat → List Char → List Char × List Char
  | 0, cs => ([], cs)
  | _ + 1, [] => ([], [])
  | fuel + 1, cs =>
    let written := cs.takeWhile (· != '\n')
    let line := if stripTabs then written.dropWhile (· == '\t') else written
    let rest := cs.drop (written.length + 1)
    if line = delimiter then ([], rest)
    else
      let r := documentLines stripTabs delimiter fuel rest
      (line ++ (if written.length < cs.length then '\n' :: r.1 else r.1), r.2)

/-- Takes the text that is input out of the lines behind this one. -/
def takeDocument (stripTabs : Bool) (delimiter : List Char) (s : Source) : List Char × Source :=
  let here := s.rest.takeWhile (· != '\n')
  let behind := s.rest.drop (here.length + 1)
  let r := documentLines stripTabs delimiter (behind.length + 1) behind
  let lines := behind.count '\n' - r.2.count '\n'
  (r.1, { s with
    rest := here ++ (if here.length < s.rest.length then '\n' :: r.2 else []), taken := s.taken + lines })

/-- The text of a word without its quotes, if it holds no expansions. -/
def plainText (word : Word) : List Char :=
  word.flatMap fun
    | .text cs _ => cs
    | _ => []

/-- Whether something comes next that ends a branch of a choice. -/
def seesBranchEnd (s : Source) : Bool := [';', ';'].isPrefixOf s.rest

/-- The use of a word behind a parameter, and what follows its sign. -/
def resort? (s : Source) : Option (Bool × Resort × Source) :=
  let use? : Char → Option Resort
    | '-' => some .instead
    | '=' => some .assign
    | '?' => some .complain
    | '+' => some .replace
    | _ => none
  match s.rest with
  | ':' :: c :: _ => (use? c).map fun use => (true, use, s.drop 2)
  | c :: _ => (use? c).map fun use => (false, use, s.drop 1)
  | [] => none

/-- The end that a pattern behind a parameter is for, and what follows its
sign. -/
def trim? (s : Source) : Option (Bool × Bool × Source) :=
  match s.rest with
  | '#' :: '#' :: _ => some (false, true, s.drop 2)
  | '#' :: _ => some (false, false, s.drop 1)
  | '%' :: '%' :: _ => some (true, true, s.drop 2)
  | '%' :: _ => some (true, false, s.drop 1)
  | _ => none

mutual

/-- Reads parts up to the end of their context. -/
def parts : Nat → Context → Reader (List Part)
  | 0, _ => fun s => s.fail (.endOfFile none)
  | fuel + 1, k => fun s =>
    let quoted := k.isQuoted
    match s.rest with
    | [] =>
      match k with
      | .plain => .ok ([], s)
      | .doubleQuoted => s.fail .unterminatedQuote
      | .braces _ => s.fail .missingBrace
      | .arithmetic _ => s.fail .missingArithmeticEnd
      | .document => .ok ([], s)
    | c :: rest =>
      if k.endsAt c then .ok ([], s)
      else if c = '\\' then
        match rest with
        | [] => .ok ([.text ['\\'] quoted], s.drop 1)
        | '\n' :: _ => parts fuel k (s.drop 2)
        | d :: _ => do
          let (ps, t) ← parts fuel k (s.drop 2)
          return (joinText (.text (if k.escapes d then [d] else ['\\', d]) true) ps, t)
      else if c = '\'' ∧ !quoted then
        let text := rest.takeWhile (· != '\'')
        if text.length = rest.length then s.fail .unterminatedQuote
        else do
          let (ps, t) ← parts fuel k (s.drop (text.length + 2))
          return (joinText (.text text true) ps, t)
      else if c = '"' ∧ k ≠ .document then do
        let (inner, t) ← parts fuel .doubleQuoted (s.drop 1)
        let (ps, t) ← parts fuel k (t.drop 1)
        return (match inner with
          | [.parameter ['@'] _] => inner ++ ps
          | _ => .text [] true :: inner ++ ps, t)
      else if c = '\x60' then
        match backquoted rest with
        | none => s.fail .openBackquote
        | some (text, after) => do
          let (body, t) ← list fuel true { rest := text, line := s.line }
          if !t.rest.isEmpty then t.fail t.tokenOfCommand
          else
            let (ps, t) ← parts fuel k (s.drop (s.rest.length - after.length))
            return (.substitution body quoted :: ps, t)
      else if c = '$' then do
        let (part, t) ← dollar fuel quoted (s.drop 1)
        let (ps, t) ← parts fuel k t
        return (joinText part ps, t)
      else do
        let (ps, t) ← parts fuel (k.after c) (s.drop 1)
        return (joinText (.text [c] quoted) ps, t)

/-- Reads an expansion after its dollar sign. -/
def dollar : Nat → Bool → Reader Part
  | 0, _ => fun s => s.fail (.endOfFile none)
  | fuel + 1, quoted => fun s =>
    match s.rest with
    | '(' :: '(' :: _ => do
      let (expression, t) ← parts fuel (.arithmetic 0) (s.drop 2)
      match t.rest with
      | ')' :: ')' :: _ => return (.arithmetic expression quoted, t.drop 2)
      | _ => t.fail .missingArithmeticEnd
    | '(' :: _ => do
      let (body, t) ← list fuel true (s.drop 1)
      match t.rest with
      | ')' :: _ => return (.substitution body quoted, t.drop 1)
      | [] => t.fail (.endOfFile (some ")"))
      | _ => t.fail t.tokenOfCommand
    | '\x7b' :: '#' :: '\x7d' :: _ => .ok (.parameter ['#'] quoted, s.drop 3)
    | '\x7b' :: rest =>
      let measured := rest.head? == some '#' && !(bracedName rest.tail).isEmpty
      let name := bracedName (if measured then rest.tail else rest)
      let t := s.drop (name.length + (if measured then 2 else 1))
      if t.rest.head? = some '\x7d' ∧ !name.isEmpty then
        .ok (if measured then .length name quoted else .parameter name quoted, t.drop 1)
      else if name.isEmpty ∨ measured then do
        let (_, t) ← parts fuel (.braces quoted) t
        return (.misshapen, t.drop 1)
      else match resort? t, trim? t with
        | some (ifEmpty, use, t), _ => do
          let (word, t) ← parts fuel (.braces quoted) t
          return (.resort name ifEmpty use word quoted, t.drop 1)
        | none, some (atEnd, longest, t) => do
          let (pattern, t) ← parts fuel (.braces false) t
          return (.trim name atEnd longest pattern quoted, t.drop 1)
        | none, none => do
          let (_, t) ← parts fuel (.braces quoted) t
          return (.misshapen, t.drop 1)
    | rest =>
      match parameterName rest with
      | [] => .ok (.text ['$'] quoted, s)
      | name => .ok (.parameter name quoted, s.drop name.length)

/-- Reads redirections. -/
def redirections : Nat → Reader (List Redirection)
  | 0 => fun s => s.fail (.endOfFile none)
  | fuel + 1 => fun s =>
    let s := s.skip
    match s.descriptor? with
    | none => .ok ([], s)
    | some (n, t) => do
      let stripTabs := ['<', '<', '-'].isPrefixOf t.rest
      let (direction, t) := t.direction
      let t := t.skip
      let (target, u) ← parts fuel .plain t
      let isText := target.all fun
        | .text .. => true
        | _ => false
      let isDescriptor := plainText target == ['-'] || (plainText target).all Char.isDigit
      if target.isEmpty then t.fail t.token
      else if direction = .duplicate ∧ isText ∧ !isDescriptor then t.fail .badDescriptor
      else if direction = .document then
        let written := t.rest.take (t.rest.length - u.rest.length)
        let (text, u) := takeDocument stripTabs (plainText target) u
        let isLiteral := written.any "\\'\"".toList.contains
        let (target, _) ← if isLiteral then pure ([.text text true], u)
          else parts fuel .document { rest := text, line := u.line + 1 }
        let (more, u) ← redirections fuel u
        return (.mk n direction target :: more, u)
      else
        let (more, u) ← redirections fuel u
        return (.mk n direction target :: more, u)

/-- Reads the assignments, words and redirections of a simple command. -/
def words : Nat → Bool → Reader (List (List Char × Word) × List Word × List Redirection)
  | 0, _ => fun s => s.fail (.endOfFile none)
  | fuel + 1, mayAssign => fun s => do
    let (rs, s) ← redirections fuel s
    match s.rest with
    | [] => return (([], [], rs), s)
    | c :: _ =>
      if endsWord c then return (([], [], rs), s)
      else
        match if mayAssign then assignment? s.rest else none with
        | some name =>
          let (value, t) ← parts fuel .plain (s.drop (name.length + 1))
          let ((assignments, ws, more), t) ← words fuel true t
          return (((name, value) :: assignments, ws, rs ++ more), t)
        | none =>
          let (word, t) ← parts fuel .plain s
          let ((assignments, ws, more), t) ← words fuel false t
          return ((assignments, word :: ws, rs ++ more), t)

/-- Reads words up to the end of a list of them. -/
def items : Nat → Reader (List Word)
  | 0 => fun s => s.fail (.endOfFile none)
  | fuel + 1 => fun s =>
    let s := s.skip
    match s.rest with
    | [] => .ok ([], s)
    | c :: _ =>
      if endsWord c then .ok ([], s)
      else do
        let (word, s) ← parts fuel .plain s
        let (ws, s) ← items fuel s
        return (word :: ws, s)

/-- Reads the patterns of a branch up to their parenthesis. -/
def patterns : Nat → Reader (List Word)
  | 0 => fun s => s.fail (.endOfFile none)
  | fuel + 1 => fun s => do
    let s := s.skip
    let (word, t) ← parts fuel .plain s
    if word.isEmpty then s.fail (s.tokenFor (some ")"))
    else
      let t := t.skip
      match t.rest with
      | '|' :: _ =>
        let (more, t) ← patterns fuel (t.drop 1)
        return (word :: more, t)
      | ')' :: _ => return ([word], t.drop 1)
      | _ => t.fail (t.tokenFor (some ")"))

/-- Reads the branches of a choice up to its last keyword. -/
def branches : Nat → Reader (List (List Word × List Command))
  | 0 => fun s => s.fail (.endOfFile none)
  | fuel + 1 => fun s => do
    let s := s.skipAll
    if s.seesWord "esac" then return ([], s.drop 4)
    else
      let (ps, s) ← patterns fuel (if s.rest.head? = some '(' then s.drop 1 else s)
      let (body, s) ← list fuel true s
      if s.seesBranchEnd then
        let (more, s) ← branches fuel (s.drop 2)
        return ((ps, body) :: more, s)
      else if s.seesWord "esac" then return ([(ps, body)], s.drop 4)
      else s.fail (match s.tokenOfCommand with
        | .endOfFile _ => .endOfFile (some ";;")
        | .unexpected token _ => .unexpected token (some ";;")
        | flaw => flaw)

/-- Reads a loop over words after its keyword. -/
def eachLoop : Nat → Reader Command
  | 0 => fun s => s.fail (.endOfFile none)
  | fuel + 1 => fun s => do
    let s := s.skip
    let name := nameAt s.rest
    let t := s.drop name.length
    if name.isEmpty || !(t.rest.isEmpty || t.rest.head?.any endsWord) then
      s.fail .badLoopVariable
    else
      let t := t.skipAll
      let (ws, t) ← if t.seesWord "in" then do
          let (ws, t) ← items fuel (t.drop 2)
          let t := t.skip
          if t.rest.head? = some ';' ∨ t.rest.head? = some '\n' then pure (some ws, t.drop 1)
          else t.fail t.token
        else pure (none, if t.rest.head? = some ';' then t.drop 1 else t)
      let ((), t) ← keyword "do" t
      let (body, t) ← list fuel false t
      let ((), t) ← keyword "done" t
      return (.each name ws body, t)

/-- Reads a function after its name. -/
def function : Nat → List Char → Reader Command
  | 0, _ => fun s => s.fail (.endOfFile none)
  | fuel + 1, name => fun s => do
    let s := (s.drop 1).skip
    if s.rest.head? = some ')' then
      let (body, s) ← command fuel (s.drop 1).skipAll
      return (.define name body, s)
    else s.fail (s.tokenFor (some ")"))

/-- Reads a command. -/
def command : Nat → Reader Command
  | 0 => fun s => s.fail (.endOfFile none)
  | fuel + 1 => fun s =>
    let s := s.skip
    let compound (c : Command) (t : Source) : Except Fault (Command × Source) := do
      let (rs, t) ← redirections fuel t
      return (if rs.isEmpty then c else .redirected s.line c rs, t)
    if s.rest.head? = some '(' then do
      let (body, t) ← list fuel false (s.drop 1)
      if t.rest.head? = some ')' then compound (.subshell body) (t.drop 1)
      else t.fail (t.tokenFor (some ")"))
    else match String.ofList s.plainWord with
      | "!" => s.fail (.unexpected "\"!\"" none)
      | "\x7b" => do
        let (body, t) ← list fuel false (s.drop 1)
        let ((), t) ← keyword "\x7d" t
        compound (.group body) t
      | "if" => do
        let (c, t) ← branch fuel (s.drop 2)
        compound c t
      | "while" => do
        let (c, t) ← loop fuel true (s.drop 5)
        compound c t
      | "until" => do
        let (c, t) ← loop fuel false (s.drop 5)
        compound c t
      | "for" => do
        let (c, t) ← eachLoop fuel (s.drop 3)
        compound c t
      | "case" => do
        let u := (s.drop 4).skip
        let (subject, t) ← parts fuel .plain u
        if subject.isEmpty then u.fail (u.tokenFor (some "word"))
        else
          let ((), t) ← keyword "in" t
          let (bs, t) ← branches fuel t
          compound (.choose subject bs) t
      | _ =>
        let name := nameAt s.rest
        let behind := (s.drop name.length).skip
        if closers.any s.seesWord then s.fail s.tokenOfCommand
        else if !name.isEmpty ∧ behind.rest.head? = some '(' then function fuel name behind
        else do
          let ((assignments, ws, rs), t) ← words fuel true s
          if assignments.isEmpty && ws.isEmpty && rs.isEmpty then t.fail t.token
          else return (.simple s.line assignments ws rs, t)

/-- Reads a conditional command after its first keyword. -/
def branch : Nat → Reader Command
  | 0 => fun s => s.fail (.endOfFile none)
  | fuel + 1 => fun s => do
    let (test, s) ← list fuel false s
    let ((), s) ← keyword "then" s
    let (body, s) ← list fuel false s
    if s.seesWord "elif" then
      let (alternative, s) ← branch fuel (s.drop 4)
      return (.branch test body [alternative], s)
    else if s.seesWord "else" then
      let (alternative, s) ← list fuel false (s.drop 4)
      let ((), s) ← keyword "fi" s
      return (.branch test body alternative, s)
    else
      let ((), s) ← keyword "fi" s
      return (.branch test body [], s)

/-- Reads a loop after its first keyword. -/
def loop : Nat → Bool → Reader Command
  | 0, _ => fun s => s.fail (.endOfFile none)
  | fuel + 1, expected => fun s => do
    let (test, s) ← list fuel false s
    let ((), s) ← keyword "do" s
    let (body, s) ← list fuel false s
    let ((), s) ← keyword "done" s
    return (.loop expected test body, s)

/-- Reads commands with pipes between them. -/
def pipeline : Nat → Reader Command
  | 0 => fun s => s.fail (.endOfFile none)
  | fuel + 1 => fun s => do
    let (c, t) ← command fuel s
    let t := t.skip
    match t.rest with
    | '|' :: '|' :: _ => return (c, t)
    | '|' :: _ =>
      let (d, t) ← pipeline fuel (t.drop 1).skipAll
      return (.pipe c d, t)
    | _ => return (c, t)

/-- Reads commands with pipes between them that may be negated. -/
def judged : Nat → Reader Command
  | 0 => fun s => s.fail (.endOfFile none)
  | fuel + 1 => fun s => do
    let s := s.skip
    if s.seesWord "!" then
      let (c, t) ← pipeline fuel (s.drop 1)
      return (.negated c, t)
    else pipeline fuel s

/-- Reads what follows a pipeline that depends on its success. -/
def dependents : Nat → Command → Reader Command
  | 0, _ => fun s => s.fail (.endOfFile none)
  | fuel + 1, c => fun s => do
    match s.rest with
    | '&' :: '&' :: _ =>
      let (d, t) ← judged fuel (s.drop 2).skipAll
      dependents fuel (.both c d) t
    | '|' :: '|' :: _ =>
      let (d, t) ← judged fuel (s.drop 2).skipAll
      dependents fuel (.either c d) t
    | _ => return (c, s)

/-- Reads the commands of a line. -/
def lineCommands : Nat → Reader (List Command)
  | 0 => fun s => s.fail (.endOfFile none)
  | fuel + 1 => fun s => do
    let (c, s) ← judged fuel s
    let (c, s) ← dependents fuel c s
    match s.rest with
    | ';' :: ';' :: _ => return ([c], s)
    | d :: _ =>
      if d = ';' ∨ d = '&' then
        let c := if d = '&' then .aside c else c
        let t := (s.drop 1).skip
        if t.rest.isEmpty || t.rest.head? == some '\n' || t.seesCloser then return ([c], t)
        else
          let (cs, t) ← lineCommands fuel t
          return (c :: cs, t)
      else return ([c], s)
    | [] => return ([c], s)

/-- Reads commands over lines up to what closes them. -/
def list : Nat → Bool → Reader (List Command)
  | 0, _ => fun s => s.fail (.endOfFile none)
  | fuel + 1, mayBeEmpty => fun s =>
    let s := s.skipAll
    if s.seesCloser then
      if mayBeEmpty ∨ s.rest.isEmpty then .ok ([], s) else s.fail s.tokenOfCommand
    else do
      let (cs, s) ← lineCommands fuel s
      let s := s.skip
      match s.rest with
      | '\n' :: _ =>
        let (more, s) ← list fuel true s
        return (cs ++ more, s)
      | _ => if s.seesCloser then return (cs, s) else s.fail s.token

end

/-- The commands of the next line that has any, and what is left; none at the
end of the text. -/
def line? (s : Source) : Except Fault (Option (List Command × Source)) :=
  let s := s.skipAll
  if s.rest.isEmpty then .ok none
  else do
    let (cs, t) ← lineCommands (8 * s.rest.length + 8) s
    let t := t.skip
    match t.rest with
    | [] => return some (cs, t)
    | '\n' :: _ => return some (cs, t.drop 1)
    | _ => t.fail t.tokenOfCommand

end Source

end DiagnosticRelay.Shell
