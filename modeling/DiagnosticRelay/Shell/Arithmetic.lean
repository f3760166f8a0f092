/-!
# Arithmetic of the shell

Integer expressions of sixty-four bits with the usual ranks of operators. They
may assign to variables.

## Main definitions

* `Shell.Arithmetic.Expression`: an expression.
* `Shell.Arithmetic.read`: the expression of a text.
* `Shell.Arithmetic.Expression.value`: its value and the assignments it makes.
-/

namespace DiagnosticRelay.Shell.Arithmetic

/-- An expression. -/
inductive Expression where
  | number (n : Int64)
  | name (cs : List Char)
  | unary (op : Char) (a : Expression)
  | binary (op : String) (a b : Expression)
  | choice (test a b : Expression)
  /-- Assigns a value, or the outcome of an operator on the old and a new one. -/
  | assign (cs : List Char) (op : String) (a : Expression)

/-- What is wrong with an expression. -/
inductive Flaw where
  | expected (what : String)
  | divisionByZero
  | illegalNumber (cs : List Char)
  deriving DecidableEq, Repr

/-- The wording of a flaw of an expression. -/
def Flaw.message (expression : String) : Flaw → String
  | .expected what => "arithmetic expression: expecting " ++ what ++ ": \"" ++ expression ++ "\""
  | .divisionByZero => "arithmetic expression: division by zero: \"" ++ expression ++ "\""
  | .illegalNumber cs => "Illegal number: " ++ String.ofList cs

/-- Passes spaces. -/
def skip (cs : List Char) : List Char := cs.dropWhile Char.isWhitespace

/-- The operators of a rank, the loosest rank first. -/
def operators : List (List String) := [
  ["||"], ["&&"], ["|"], ["^"], ["&"], ["==", "!="], ["<=", ">=", "<", ">"], ["<<", ">>"],
  ["+", "-"], ["*", "/", "%"]]

/-- One or zero for a truth value. -/
def ofBool (b : Bool) : Int64 := if b then 1 else 0

/-- The outcome of an operator on two values. -/
def outcome (op : String) (a b : Int64) : Except Flaw Int64 :=
  match op with
  | "|" => .ok (a ||| b)
  | "^" => .ok (a ^^^ b)
  | "&" => .ok (a &&& b)
  | "==" => .ok (ofBool (a == b))
  | "!=" => .ok (ofBool (a != b))
  | "<=" => .ok (ofBool (a ≤ b))
  | ">=" => .ok (ofBool (b ≤ a))
  | "<" => .ok (ofBool (a < b))
  | ">" => .ok (ofBool (b < a))
  | "<<" => .ok (a <<< b)
  | ">>" => .ok (a >>> b)
  | "+" => .ok (a + b)
  | "-" => .ok (a - b)
  | "*" => .ok (a * b)
  | "/" => if b = 0 then .error .divisionByZero else .ok (a / b)
  | "%" => if b = 0 then .error .divisionByZero else .ok (a % b)
  | _ => .ok b

/-- The operator of a rank that comes next. A doubled sign is no single one, nor
is a sign before `=`. -/
def next? (ops : List String) (cs : List Char) : Option (String × List Char) :=
  (ops.find? fun op =>
    op.toList.isPrefixOf cs
      && !(op.length == 1 && "|&<>".toList.contains (cs.headD ' ') && cs[1]? == cs.head?)
      && !(!(["==", "!=", "<=", ">="].contains op) && cs[op.length]? == some '=')).map
    fun op => (op, cs.drop op.length)

/-- The number of digits in a base, held within sixty-four bits. -/
def digits? (base : Nat) (cs : List Char) : Option Int64 :=
  (cs.foldlM (fun n c =>
    let d := if c.isDigit then c.toNat - 48 else if 'a' ≤ c ∧ c ≤ 'f' then c.toNat - 87
      else if 'A' ≤ c ∧ c ≤ 'F' then c.toNat - 55 else 99
    if d < base then some (n * base + d) else none) 0).map fun n =>
      Int64.ofInt (min (Int.ofNat n) Int64.maxValue.toInt)

/-- The value of a number: decimal, `0x` hexadecimal or `0` octal. -/
def number? (cs : List Char) : Option Int64 :=
  match cs with
  | '0' :: 'x' :: rest | '0' :: 'X' :: rest => if rest.isEmpty then none else digits? 16 rest
  | '0' :: rest => digits? 8 rest
  | [] => none
  | cs => digits? 10 cs

/-- The value of a number with a sign and blanks around it; nothing is zero. -/
def signed? (cs : List Char) : Option Int64 :=
  match (skip (skip cs).reverse).reverse with
  | [] => some 0
  | '-' :: rest => (number? rest).map fun n => -n
  | '+' :: rest => number? rest
  | cs => number? cs

/-- The assignment that comes next: its operator, which is `=` alone or comes
before it. -/
def assignment? (cs : List Char) : Option (String × List Char) :=
  (["=", "*=", "/=", "%=", "+=", "-=", "<<=", ">>=", "&=", "^=", "|="].find? fun op =>
    op.toList.isPrefixOf cs && !(op == "=" && cs[1]? == some '=')).map
    fun op => ((op.dropEnd 1).toString, cs.drop op.length)

mutual

/-- Reads an expression. -/
def full : Nat → List Char → Except Flaw (Expression × List Char)
  | 0, _ => .error (.expected "primary")
  | fuel + 1, cs => do
    let cs := skip cs
    let word := cs.takeWhile fun c => c.isAlphanum || c == '_'
    match assignment? (skip (cs.drop word.length)) with
    | some (op, rest) =>
      if word.isEmpty || word.head?.any Char.isDigit then ranked fuel cs
      else
        let (a, rest) ← full fuel rest
        return (.assign word op a, rest)
    | none => ranked fuel cs

/-- Reads an expression that assigns at most in parentheses. -/
def ranked : Nat → List Char → Except Flaw (Expression × List Char)
  | 0, _ => .error (.expected "primary")
  | fuel + 1, cs => do
    let (test, cs) ← binary fuel operators cs
    match skip cs with
    | '?' :: rest =>
      let (a, rest) ← full fuel rest
      match skip rest with
      | ':' :: rest =>
        let (b, rest) ← ranked fuel rest
        return (.choice test a b, rest)
      | _ => throw (.expected "':'")
    | cs => return (test, cs)

/-- Reads an expression of the given ranks and tighter ones. -/
def binary : Nat → List (List String) → List Char → Except Flaw (Expression × List Char)
  | 0, _, _ => .error (.expected "primary")
  | fuel + 1, [], cs => operand fuel (skip cs)
  | fuel + 1, ops :: ranks, cs => do
    let (a, cs) ← binary fuel ranks cs
    more fuel ops ranks a (skip cs)

/-- Reads further operands of a rank. -/
def more : Nat → List String → List (List String) → Expression → List Char →
    Except Flaw (Expression × List Char)
  | 0, _, _, _, _ => .error (.expected "primary")
  | fuel + 1, ops, ranks, a, cs =>
    match next? ops cs with
    | none => .ok (a, cs)
    | some (op, cs) => do
      let (b, cs) ← binary fuel ranks cs
      more fuel ops ranks (.binary op a b) (skip cs)

/-- Reads an operand. -/
def operand : Nat → List Char → Except Flaw (Expression × List Char)
  | 0, _ => .error (.expected "primary")
  | fuel + 1, cs =>
    match cs with
    | '(' :: rest => do
      let (a, cs) ← full fuel rest
      match skip cs with
      | ')' :: rest => return (a, rest)
      | _ => throw (.expected "')'")
    | c :: rest =>
      let word := cs.takeWhile fun c => c.isAlphanum || c == '_'
      if "-+!~".toList.contains c then
        (operand fuel (skip rest)).map fun r => (.unary c r.1, r.2)
      else if word.isEmpty then .error (.expected "primary")
      else if c.isDigit then
        match number? word with
        | some n => .ok (.number n, cs.drop word.length)
        | none => .error (.expected "EOF")
      else .ok (.name word, cs.drop word.length)
    | [] => .error (.expected "primary")

end

/-- The expression of a text. An empty one is zero. -/
def read (cs : List Char) : Except Flaw Expression :=
  if (skip cs).isEmpty then .ok (.number 0)
  else do
    let (a, rest) ← full (16 * cs.length + 64) cs
    if (skip rest).isEmpty then return a else throw (.expected "EOF")

/-- Variables with the values an expression gave them, the latest first. -/
abbrev Assignments := List (List Char × Int64)

/-- The value of a name after assignments, given the values before. -/
def valueOf (lookup : List Char → Except Flaw Int64) (made : Assignments) (cs : List Char) :
    Except Flaw Int64 :=
  match made.find? (·.1 == cs) with
  | some (_, n) => .ok n
  | none => lookup cs

/-- The value of an expression and the assignments made up to its end, given the
values of names. What is not needed for the value is left aside. -/
def Expression.value (lookup : List Char → Except Flaw Int64) :
    Expression → Assignments → Except Flaw (Int64 × Assignments)
  | .number n, made => .ok (n, made)
  | .name cs, made => (valueOf lookup made cs).map fun n => (n, made)
  | .unary op a, made => do
    let (n, made) ← a.value lookup made
    return (if op = '-' then -n else if op = '!' then ofBool (n == 0) else if op = '~' then ~~~n else n,
      made)
  | .binary op a b, made => do
    let (m, made) ← a.value lookup made
    if op = "||" ∧ m ≠ 0 then return (1, made)
    else if op = "&&" ∧ m = 0 then return (0, made)
    else
      let (n, made) ← b.value lookup made
      if op = "||" ∨ op = "&&" then return (ofBool (n != 0), made)
      else return (← outcome op m n, made)
  | .choice test a b, made => do
    let (m, made) ← test.value lookup made
    if m ≠ 0 then a.value lookup made else b.value lookup made
  | .assign cs op a, made => do
    let (n, made) ← a.value lookup made
    let n ← if op = "" then pure n else do outcome op (← valueOf lookup made cs) n
    return (n, (cs, n) :: made)

end DiagnosticRelay.Shell.Arithmetic
