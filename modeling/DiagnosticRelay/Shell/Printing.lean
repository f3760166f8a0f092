import DiagnosticRelay.Shell.Effect

/-!
# Printing programs

`echo` prints its operands; `printf` prints a format as often as its operands
last.

## Main definitions

* `Shell.echo`, `Shell.echoPlain`: the two ways to print operands.
* `Shell.printf`: formatted printing.
-/

namespace DiagnosticRelay.Shell

/-! ## Escapes -/

/-- Whether a character is an octal digit. -/
def isOctal (c : Char) : Bool := '0' ≤ c && c ≤ '7'

/-- The value of octal digits. -/
def octalValue (cs : List Char) : Nat := cs.foldl (fun n c => n * 8 + (c.toNat - 48)) 0

/-- The octet of a letter after a backslash. -/
def escapeLetter? : Char → Option UInt8
  | '\\' => some 0x5C
  | 'a' => some 0x07
  | 'b' => some 0x08
  | 'f' => some 0x0C
  | 'n' => some 0x0A
  | 'r' => some 0x0D
  | 't' => some 0x09
  | 'v' => some 0x0B
  | _ => none

/-- The octets of the text after a backslash, and what is left. An escape that
means nothing keeps its backslash. -/
def escape (cs : List Char) : Octets × List Char :=
  match cs with
  | [] => ([0x5C], [])
  | c :: rest =>
    let digits := (cs.take 3).takeWhile isOctal
    if !digits.isEmpty then ([UInt8.ofNat (octalValue digits)], cs.drop digits.length)
    else match escapeLetter? c with
      | some octet => ([octet], rest)
      | none => ([0x5C], cs)

/-- The text of `echo`, its escapes undone; `\c` ends it. The flag tells that it
was ended. -/
def echoText : Nat → List Char → Octets × Bool
  | 0, _ => ([], false)
  | _ + 1, [] => ([], false)
  | _ + 1, '\\' :: 'c' :: _ => ([], true)
  | fuel + 1, '\\' :: '0' :: rest =>
    let digits := (rest.take 3).takeWhile isOctal
    let r := echoText fuel (rest.drop digits.length)
    (UInt8.ofNat (octalValue digits) :: r.1, r.2)
  | fuel + 1, '\\' :: rest =>
    let e := escape rest
    let r := echoText fuel e.2
    (e.1 ++ r.1, r.2)
  | fuel + 1, c :: rest =>
    let r := echoText fuel rest
    (octetsOf [c] ++ r.1, r.2)

/-! ## Operands -/

/-- Prints its operands, their escapes undone. -/
def echo (arguments : List (List Char)) : Effect :=
  let (bare, operands) := match arguments with
    | ['-', 'n'] :: rest => (true, rest)
    | rest => (false, rest)
  let text := List.intercalate [' '] operands
  let r := echoText (text.length + 1) text
  { out := if bare || r.2 then r.1 else r.1 ++ [0x0A] }

/-- Whether an operand is nothing but letters that say how to print. -/
def isEchoOption (cs : List Char) : Bool :=
  match cs with
  | '-' :: c :: rest => (c :: rest).all "neE".toList.contains
  | _ => false

/-- Prints its operands as they are, unless the letter `e` asks for escapes. -/
def echoPlain (arguments : List (List Char)) : Effect :=
  let options := arguments.takeWhile isEchoOption
  let letters := options.flatten
  let text := List.intercalate [' '] (arguments.drop options.length)
  let escaped := (letters.reverse.find? fun c => c == 'e' || c == 'E') == some 'e'
  let r := if escaped then echoText (text.length + 1) text else (octetsOf text, false)
  { out := if letters.contains 'n' || r.2 then r.1 else r.1 ++ [0x0A] }

/-! ## Formats -/

/-- A number as C reads it, with the base its start tells, and what is left. -/
def leadingNumber (cs : List Char) : Int × List Char :=
  let cs := cs.dropWhile Char.isWhitespace
  let negative := cs.head? == some '-'
  let body := if negative || cs.head? == some '+' then cs.tail else cs
  let digit (c : Char) : Nat :=
    if c.isDigit then c.toNat - 48 else if 'a' ≤ c ∧ c ≤ 'f' then c.toNat - 87
    else if 'A' ≤ c ∧ c ≤ 'F' then c.toNat - 55 else 99
  let (base, body) : Nat × List Char := match body with
    | '0' :: x :: d :: rest =>
      if (x = 'x' ∨ x = 'X') ∧ digit d < 16 then (16, d :: rest) else (8, body)
    | '0' :: _ => (8, body)
    | _ => (10, body)
  let digits := body.takeWhile fun c => digit c < base
  let n := digits.foldl (fun n c => n * base + digit c) 0
  (if negative then -Int.ofNat n else Int.ofNat n,
    if digits.isEmpty then cs else body.drop digits.length)

/-- An operand as a number, and what is wrong with it. -/
def operandNumber (cs : List Char) : Int × Option String :=
  match cs with
  | [] => (0, none)
  | c :: rest =>
    if c = '\'' ∨ c = '"' then ((rest.head?.map fun d => Int.ofNat d.toNat).getD 0, none)
    else
      let r := leadingNumber cs
      let complaint := if r.2.isEmpty then none
        else some (String.ofList cs ++
          if r.2 = cs then ": expected numeric value" else ": not completely converted")
      (r.1, complaint)

/-- The form of a conversion of `printf`. -/
structure Conversion where
  flags : List Char := []
  width : Nat := 0
  precision : Option Nat := none
  kind : Char

/-- Reads the size of a field: digits, or a star for the next operand. It comes
with what is left of the format and of the operands, and how many of those it
took. -/
def fieldSize (cs : List Char) (operands : List (List Char)) :
    Nat × List Char × List (List Char) × Nat :=
  match cs with
  | '*' :: rest => (((operands.head?.bind natural?).getD 0), rest, operands.tail, 1)
  | cs =>
    let digits := cs.takeWhile Char.isDigit
    ((natural? digits).getD 0, cs.drop digits.length, operands, 0)

/-- Reads a conversion after its percent sign, with what is left of the format
and of the operands, and how many of those it took. -/
def conversion? (cs : List Char) (operands : List (List Char)) :
    Option (Conversion × List Char × List (List Char) × Nat) :=
  let flags := cs.takeWhile "-+ #0".toList.contains
  let (width, cs, operands, m) := fieldSize (cs.drop flags.length) operands
  let (precision, cs, operands, n) := match cs with
    | '.' :: rest =>
      let (size, rest, operands, n) := fieldSize rest operands
      (some size, rest, operands, n)
    | cs => (none, cs, operands, 0)
  match cs with
  | kind :: rest => some (⟨flags, width, precision, kind⟩, rest, operands, m + n)
  | [] => none

namespace Conversion

/-- A text in the field of a conversion. -/
def inField (k : Conversion) (text : Octets) : Octets :=
  let filler := List.replicate (k.width - text.length) (0x20 : UInt8)
  if k.flags.contains '-' then text ++ filler else filler ++ text

/-- The sign or mark of a number and its digits, in the field of a conversion. -/
def numberField (k : Conversion) (sign digits : List Char) : Octets :=
  let digits := List.replicate (k.precision.getD 1 - digits.length) '0' ++ digits
  let zeros := if k.flags.contains '0' ∧ !k.flags.contains '-' ∧ k.precision = none then
    List.replicate (k.width - sign.length - digits.length) '0' else []
  k.inField (octetsOf (sign ++ zeros ++ digits))

/-- The digits of a number in a base. A negative one is what sixty-four bits
hold of it. -/
def unsignedField (k : Conversion) (base : Nat) (number : Int) : Octets :=
  let n := number.toInt64.toUInt64.toNat
  let digits := if k.precision = some 0 ∧ n = 0 then [] else Nat.toDigits base n
  let mark := if k.flags.contains '#' ∧ n ≠ 0 then
    (if base = 16 then ['0', 'x'] else if base = 8 then ['0'] else []) else []
  k.numberField mark digits

/-- The text of an operand under a conversion, and what is wrong with it. -/
def text? (k : Conversion) (operand : List Char) : Option (Octets × Option String) :=
  let (number, complaint) := operandNumber operand
  let cut (text : Octets) : Octets := k.inField (text.take (k.precision.getD text.length))
  let signed : Octets :=
    let sign := if number < 0 then ['-'] else if k.flags.contains '+' then ['+']
      else if k.flags.contains ' ' then [' '] else []
    k.numberField sign (Nat.toDigits 10 number.natAbs)
  match k.kind with
  | 's' => some (cut (octetsOf operand), none)
  | 'b' => some (cut (echoText (operand.length + 1) operand).1, none)
  | 'c' => some (k.inField ((octetsOf operand).take 1), none)
  | 'd' | 'i' => some (signed, complaint)
  | 'u' => some (k.unsignedField 10 number, complaint)
  | 'o' => some (k.unsignedField 8 number, complaint)
  | 'x' => some (k.unsignedField 16 number, complaint)
  | 'X' => some ((k.unsignedField 16 number).map fun b => if 0x61 ≤ b ∧ b ≤ 0x7A then b - 0x20 else b,
      complaint)
  | _ => none

end Conversion

/-- What printing a format gives: its text, the number of operands it took, what
was wrong with them, whether an operand ended it, and what was wrong with the
format. -/
structure Printed where
  out : Octets := []
  taken : Nat := 0
  complaints : List String := []
  isEnded : Bool := false
  fault : Option String := none

/-- A text in front of a print. -/
def Printed.behind (text : Octets) (p : Printed) : Printed := { p with out := text ++ p.out }

/-- Prints a format once. -/
def formatOnce : Nat → List Char → List (List Char) → Nat → Printed
  | 0, _, _, taken => { taken }
  | _ + 1, [], _, taken => { taken }
  | fuel + 1, '\\' :: rest, operands, taken =>
    let e := escape rest
    (formatOnce fuel e.2 operands taken).behind e.1
  | fuel + 1, '%' :: '%' :: rest, operands, taken =>
    (formatOnce fuel rest operands taken).behind [0x25]
  | fuel + 1, '%' :: rest, operands, taken =>
    match conversion? rest operands with
    | none => { taken, fault := some "missing format character" }
    | some (k, rest, operands, more) =>
      let operand := operands.head?.getD []
      match k.text? operand with
      | none => { taken, fault := some ("%" ++ k.kind.toString ++ ": invalid directive") }
      | some (text, complaint) =>
        if k.kind = 'b' ∧ (echoText (operand.length + 1) operand).2 then
          { out := text, taken := taken + more + 1, isEnded := true }
        else
          let r := (formatOnce fuel rest operands.tail (taken + more + 1)).behind text
          { r with complaints := complaint.toList ++ r.complaints }
  | fuel + 1, c :: rest, operands, taken =>
    (formatOnce fuel rest operands taken).behind (octetsOf [c])

/-- Prints a format until the operands are used up. -/
def formatAll (format : List Char) : Nat → List (List Char) → Printed
  | 0, _ => {}
  | fuel + 1, operands =>
    let r := formatOnce (format.length + 1) format operands 0
    if r.isEnded ∨ r.fault.isSome ∨ r.taken = 0 ∨ operands.length ≤ r.taken then r
    else
      let more := formatAll format fuel (operands.drop r.taken)
      { more with out := r.out ++ more.out, complaints := r.complaints ++ more.complaints }

/-- Prints a format with its operands. The title stands before its messages. -/
def printf (title : String) (arguments : List (List Char)) : Effect :=
  let fail (message : String) : Effect := .failure 2 (title ++ "printf: " ++ message)
  let print (format : List Char) (operands : List (List Char)) : Effect :=
    let r := formatAll format (operands.length + 1) operands
    let complaints := r.complaints.map fun c => title ++ "printf: " ++ c ++ "\n"
    match r.fault with
    | some fault => fail fault
    | none =>
      { out := r.out, err := complaints.flatMap Octets.ofString,
        status := if complaints.isEmpty then 0 else 1 }
  match arguments with
  | [] | [['-', '-']] => fail "usage: printf format [arg ...]"
  | ['-', '-'] :: format :: operands => print format operands
  | ('-' :: letter :: rest) :: operands =>
    if letter = '-' then print ('-' :: letter :: rest) operands
    else fail ("Illegal option -" ++ letter.toString)
  | format :: operands => print format operands

end DiagnosticRelay.Shell
