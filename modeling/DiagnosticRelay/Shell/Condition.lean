import DiagnosticRelay.Shell.Effect

/-!
# Conditions

The expressions that `test` decides.

## Main definitions

* `Shell.Condition.holds`: the truth of a condition.
-/

namespace DiagnosticRelay.Shell.Condition

/-- Why a condition has no truth. -/
inductive Flaw where
  | illegalNumber (operand : List Char)
  | unexpectedOperator (operand : List Char)
  | missingOperand (operator : List Char)
  deriving DecidableEq, Repr

/-- The wording of a flaw of a condition. -/
def Flaw.message : Flaw → String
  | .illegalNumber operand => "Illegal number: " ++ String.ofList operand
  | .unexpectedOperator operand => String.ofList operand ++ ": unexpected operator"
  | .missingOperand operator => String.ofList operator ++ ": argument expected"

/-- The truth of an operator on one operand. -/
def unary? (files : FileTree) (here : FileNames) (op : List Char) (a : List Char) : Option Bool :=
  let entry : Option FileEntry := match files.follow here (pathOf a) with
    | .ok names => files.entry? names
    | .error _ => none
  let isDirectory := entry == some .directory
  match String.ofList op with
  | "-n" => some !a.isEmpty
  | "-z" => some a.isEmpty
  | "-e" | "-r" | "-w" => some entry.isSome
  | "-d" => some isDirectory
  | "-f" => some (entry.isSome && !isDirectory)
  | "-x" => some (match entry with
    | some (.file _) | none => false
    | some _ => true)
  | "-s" => some (match entry with
    | some (.file content) => !content.isEmpty
    | some _ => true
    | none => false)
  | "-h" | "-L" | "-p" | "-S" | "-b" | "-c" | "-t" => some false
  | _ => none

/-- The truth of an operator between two operands. -/
def binary? (op a b : List Char) : Option (Except Flaw Bool) :=
  let compare (p : Int → Int → Bool) : Option (Except Flaw Bool) :=
    match integer? a, integer? b with
    | some m, some n => some (.ok (p m n))
    | none, _ => some (.error (.illegalNumber a))
    | _, none => some (.error (.illegalNumber b))
  match String.ofList op with
  | "=" | "==" => some (.ok (a == b))
  | "!=" => some (.ok (a != b))
  | "-eq" => compare (· == ·)
  | "-ne" => compare (· != ·)
  | "-lt" => compare (· < ·)
  | "-le" => compare (· ≤ ·)
  | "-gt" => compare (· > ·)
  | "-ge" => compare (· ≥ ·)
  | _ => none

mutual

/-- Reads a condition whose parts may be joined by `-o`. -/
def anyOf (files : FileTree) (here : FileNames) : Nat → List (List Char) →
    Except Flaw (Bool × List (List Char))
  | 0, rest => .ok (false, rest)
  | fuel + 1, arguments => do
    let (a, rest) ← allOf files here fuel arguments
    match rest with
    | ['-', 'o'] :: rest =>
      let (b, rest) ← anyOf files here fuel rest
      return (a || b, rest)
    | _ => return (a, rest)

/-- Reads a condition whose parts may be joined by `-a`. -/
def allOf (files : FileTree) (here : FileNames) : Nat → List (List Char) →
    Except Flaw (Bool × List (List Char))
  | 0, rest => .ok (false, rest)
  | fuel + 1, arguments => do
    let (a, rest) ← single files here fuel arguments
    match rest with
    | ['-', 'a'] :: rest =>
      let (b, rest) ← allOf files here fuel rest
      return (a && b, rest)
    | _ => return (a, rest)

/-- Reads a condition that stands alone. -/
def single (files : FileTree) (here : FileNames) : Nat → List (List Char) →
    Except Flaw (Bool × List (List Char))
  | 0, rest => .ok (false, rest)
  | fuel + 1, arguments =>
    match arguments with
    | [] => .ok (false, [])
    | a :: rest =>
      let binary : Option (Except Flaw Bool × List (List Char)) := match rest with
        | op :: b :: rest => (binary? op a b).map fun r => (r, rest)
        | _ => none
      match binary with
      | some (r, rest) => r.map fun t => (t, rest)
      | none =>
        if a = ['!'] ∧ !rest.isEmpty then do
          let (t, rest) ← single files here fuel rest
          return (!t, rest)
        else if a = ['('] ∧ !rest.isEmpty then do
          let (t, rest) ← anyOf files here fuel rest
          return (t, rest.drop 1)
        else match rest with
          | b :: rest =>
            match unary? files here a b with
            | some t => .ok (t, rest)
            | none =>
              if rest.isEmpty ∧ (binary? b a a).isSome then .error (.missingOperand b)
              else .ok (!a.isEmpty, b :: rest)
          | [] => .ok (!a.isEmpty, [])

end

/-- The truth of a condition. -/
def holds (files : FileTree) (here : FileNames) (arguments : List (List Char)) :
    Except Flaw Bool := do
  let (t, rest) ← anyOf files here (3 * arguments.length + 3) arguments
  if rest.isEmpty then return t
  else
    let read := arguments.take (arguments.length - rest.length)
    throw (.unexpectedOperator (read.getLast?.getD []))

end DiagnosticRelay.Shell.Condition
