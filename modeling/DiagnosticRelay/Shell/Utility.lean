import DiagnosticRelay.Shell.Effect
import DiagnosticRelay.Shell.Printing

/-!
# Utilities

What the small programs do that a system has at hand. The name a program was
called by starts its messages.

## Main definitions

* `Shell.Call`: a call of a program.
* `Shell.utility?`: what a program leaves, by its name.
-/

namespace DiagnosticRelay.Shell

/-- A call of a program. -/
structure Call where
  name : String
  operands : List (List Char)
  input : Octets
  files : FileTree
  here : FileNames

namespace Call

/-- A failure of a program. -/
def failure (c : Call) (message : String) (status : Nat) : Effect :=
  .failure status (c.name ++ ": " ++ message)

/-- The pointer to the help of a program, as its messages end with it. -/
def helpText (c : Call) : String := "\nTry '" ++ c.name ++ " --help' for more information."

/-- A call without the options that it starts with: the letters of those. -/
def options (c : Call) : List Char × Call :=
  let words := c.operands.takeWhile fun cs => cs.head? == some '-' && cs.length > 1 && cs != ['-', '-']
  let rest := c.operands.drop words.length
  (words.flatMap List.tail, { c with operands := if rest.head? = some ['-', '-'] then rest.tail else rest })

/-- The first option that is none of some letters. -/
def refusal? (c : Call) (known : String) : Option Effect :=
  (c.options.1.find? fun o => !known.toList.contains o).map fun o =>
    c.failure ("invalid option -- '" ++ o.toString ++ "'" ++ c.helpText) 1

/-- The content of an operand; `-` stands for the input. -/
def content (c : Call) (operand : List Char) : Except Effect Octets :=
  if operand = ['-'] then .ok c.input
  else match c.files.read c.here (pathOf operand) with
    | .ok content => .ok content
    | .error fault => .error (c.failure (String.ofList operand ++ ": " ++ fault.systemText) 1)

/-- The content of an operand that a program opens first. -/
def opened (c : Call) (operand : List Char) : Except Effect Octets :=
  if operand = ['-'] then .ok c.input
  else match c.files.read c.here (pathOf operand) with
    | .ok content => .ok content
    | .error fault =>
      .error (c.failure ("cannot open '" ++ String.ofList operand ++ "' for reading: "
        ++ fault.systemText) 1)

/-- The effects of all operands, or of the input when there are none. -/
def onEach (c : Call) (read : List Char → Except Effect Octets) (f : Octets → Octets) : Effect :=
  if c.operands.isEmpty then { out := f c.input }
  else .gather (c.operands.map fun operand =>
    match read operand with
    | .ok content => { out := f content }
    | .error effect => effect)

/-- The place of an operand: the directory it is in and its own name. -/
def place (c : Call) (operand : List Char) : Except FileFault FileNames :=
  let p := pathOf operand
  let parts := Path.dropSilentEnd (Path.split p.octets)
  match parts.getLast? with
  | none => .error .notFound
  | some last => do
    let names ← c.files.followParts (if p.isAbsolute then [] else c.here) parts.dropLast
    match c.files.entry? names with
    | some .directory => return names ++ [last]
    | some _ => throw .notDirectory
    | none => throw .notFound

/-- Does something for each operand in turn; what one leaves the next one finds. -/
def inTurn (c : Call) (what : String) (f : Call → List Char → Effect) : Effect :=
  if c.operands.isEmpty then c.failure ("missing " ++ what ++ c.helpText) 1
  else (c.operands.foldl (fun (r : Call × Effect) operand =>
    let effect := f r.1 operand
    ({ r.1 with files := effect.files.getD r.1.files }, r.2.append effect)) (c, {})).2

end Call

/-! ## Lines -/

/-- The lines of a text, each with its end. -/
def linesOf (octets : Octets) : List Octets :=
  octets.foldr (fun b lines =>
    if b = 0x0A then [b] :: lines
    else match lines with
      | [] => [[b]]
      | line :: lines => if line = [] then [b] :: lines else (b :: line) :: lines) []

/-- The first lines. -/
def firstLines (n : Nat) (octets : Octets) : Octets := ((linesOf octets).take n).flatten

/-- The last lines. -/
def lastLines (n : Nat) (octets : Octets) : Octets :=
  let lines := linesOf octets
  (lines.drop (lines.length - n)).flatten

/-! ## Programs that print files -/

/-- Prints files, or its input without any. -/
def cat (c : Call) : Effect :=
  match c.refusal? "u" with
  | some effect => effect
  | none => let c := c.options.2; c.onEach c.content id

/-- The number of things to print, the unit being octets, and the files. -/
def amount (default : Nat) (operands : List (List Char)) : Bool × Bool × Nat × List (List Char) :=
  let number (cs : List Char) : Bool × Nat :=
    match cs with
    | '+' :: rest => (true, (natural? rest).getD default)
    | '-' :: rest => (false, (natural? rest).getD default)
    | cs => (false, (natural? cs).getD default)
  match operands with
  | ['-', 'n'] :: n :: rest => (false, (number n).1, (number n).2, rest)
  | ['-', 'c'] :: n :: rest => (true, (number n).1, (number n).2, rest)
  | ('-' :: 'n' :: n) :: rest => (false, (number n).1, (number n).2, rest)
  | ('-' :: 'c' :: n) :: rest => (true, (number n).1, (number n).2, rest)
  | ('-' :: n) :: rest =>
    match natural? n with
    | some n => (false, false, n, rest)
    | none => (false, false, default, ('-' :: n) :: rest)
  | rest => (false, false, default, rest)

/-- The name of an operand over its text, where there are several. -/
def withTitles (c : Call) (f : Octets → Octets) : Effect :=
  if c.operands.length ≤ 1 then c.onEach c.opened f
  else
    let one (title : Bool) (operand : List Char) : Effect :=
      match c.opened operand with
      | .error effect => effect
      | .ok content =>
        { out := octetsOf ((if title then ['\n'] else []) ++ "==> ".toList ++ operand ++ " <==\n".toList)
            ++ f content }
    .gather ((c.operands.head?.map (one false)).toList ++ c.operands.tail.map (one true))

/-- Prints the first lines or octets. A file without end gives as many octets as
are asked for. -/
def head (c : Call) : Effect :=
  let (octets, _, n, rest) := amount 10 c.operands
  if octets ∧ rest = ["/dev/zero".toList] then { out := List.replicate n 0 }
  else withTitles { c with operands := rest } (if octets then List.take n else firstLines n)

/-- Prints the last lines or octets, or those from a number on. -/
def tail (c : Call) : Effect :=
  let (octets, fromStart, n, rest) := amount 10 c.operands
  withTitles { c with operands := rest } fun content =>
    if octets then content.drop (if fromStart then n - 1 else content.length - n)
    else if fromStart then ((linesOf content).drop (n - 1)).flatten else lastLines n content

/-- Whether an octet separates words. -/
def isSpaceOctet (b : UInt8) : Bool := b == 0x20 || (0x09 ≤ b && b ≤ 0x0D)

/-- The number of words: runs of octets between spaces that have something to
show. -/
def wordCount (octets : Octets) : Nat :=
  (octets.foldl (fun (r : Nat × Bool) b =>
    if isSpaceOctet b then (r.1, false)
    else if 0x21 ≤ b ∧ b ≤ 0x7E ∧ !r.2 then (r.1 + 1, true) else r) (0, false)).1

/-- Counts lines, words and octets. -/
def count (c : Call) : Effect :=
  let (letters, rest) := c.options
  let letters := if letters.isEmpty then ['l', 'w', 'c'] else letters
  let counts (octets : Octets) : List Nat :=
    (if letters.contains 'l' then [octets.count 0x0A] else [])
      ++ (if letters.contains 'w' then [wordCount octets] else [])
      ++ (if letters.contains 'm' then [octets.length] else [])
      ++ (if letters.contains 'c' then [octets.length] else [])
  let shown (width : Nat) (ns : List Nat) (name : List Char) : List Char :=
    let columns := ns.map fun n =>
      let digits := Nat.toDigits 10 n
      List.replicate (width - digits.length) ' ' ++ digits
    List.intercalate [' '] columns ++ (if name.isEmpty then [] else ' ' :: name) ++ ['\n']
  if rest.operands.isEmpty then
    let ns := counts c.input
    { out := octetsOf (shown (if ns.length ≤ 1 then 1 else 7) ns []) }
  else
    let read := rest.operands.map fun operand => (operand, rest.content operand)
    let known := read.filterMap fun (_, r) => r.toOption
    let width := if letters.length = 1 ∧ read.length = 1 then 1
      else (Nat.toDigits 10 ((known.map List.length).foldl (· + ·) 0)).length
    let each := read.map fun (operand, r) => match r with
      | .ok octets => ({ out := octetsOf (shown width (counts octets) operand) } : Effect)
      | .error effect => effect
    let total := if read.length ≤ 1 then []
      else
        let sums := (known.map counts).foldl (fun sums ns =>
          if sums.isEmpty then ns else List.zipWith (· + ·) sums ns) []
        [({ out := octetsOf (shown width sums "total".toList) } : Effect)]
    .gather (each ++ total)

/-- Whether one octet string stands before another, octet by octet. -/
def octetsBefore (a b : Octets) : Bool := !(b.map UInt8.toNat < a.map UInt8.toNat)

/-- Prints lines in order. -/
def sort (c : Call) : Effect :=
  let (letters, c) := c.options
  let read := if c.operands.isEmpty then [.ok c.input] else c.operands.map c.content
  match read.findSome? fun
    | .error effect => some effect
    | .ok _ => none with
  | some effect => { effect with status := 2 }
  | none =>
    let texts := read.filterMap Except.toOption
    let lines := texts.flatMap fun text => (linesOf text).map fun line => line.filter (· != 0x0A)
    let value (line : Octets) : Int := (leadingNumber line.decodeLossy).1
    let before (a b : Octets) : Bool :=
      if letters.contains 'n' ∧ value a ≠ value b then value a < value b else octetsBefore a b
    let sorted := lines.mergeSort (if letters.contains 'r' then fun a b => before b a else before)
    let sorted := if letters.contains 'u' then sorted.eraseDups else sorted
    { out := sorted.flatMap (· ++ [0x0A]) }

/-! ## Programs that change octets -/

/-- The octets of a set of `tr`. -/
def translateSet : Nat → List Char → Octets
  | 0, _ => []
  | _ + 1, [] => []
  | fuel + 1, '\\' :: rest =>
    let e := escape rest
    e.1 ++ translateSet fuel e.2
  | fuel + 1, '[' :: ':' :: rest =>
    let name := rest.takeWhile (· != ':')
    let between (a b : Nat) := (List.range (b + 1 - a)).map fun n => UInt8.ofNat (a + n)
    let behind := translateSet fuel (rest.drop (name.length + 2))
    match String.ofList name with
    | "lower" => between 0x61 0x7A ++ behind
    | "upper" => between 0x41 0x5A ++ behind
    | "digit" => between 0x30 0x39 ++ behind
    | "alpha" => between 0x41 0x5A ++ between 0x61 0x7A ++ behind
    | "alnum" => between 0x30 0x39 ++ between 0x41 0x5A ++ between 0x61 0x7A ++ behind
    | "space" => between 0x09 0x0D ++ [0x20] ++ behind
    | "blank" => [0x09, 0x20] ++ behind
    | _ => [0x5B, 0x3A] ++ translateSet fuel rest
  | fuel + 1, a :: '-' :: b :: rest =>
    if a ≤ b ∧ a.toNat < 128 ∧ b.toNat < 128 then
      (List.range (b.toNat - a.toNat + 1)).map (fun n => UInt8.ofNat (a.toNat + n))
        ++ translateSet fuel rest
    else octetsOf [a] ++ translateSet fuel ('-' :: b :: rest)
  | fuel + 1, c :: rest => octetsOf [c] ++ translateSet fuel rest

/-- Octets without repetitions of those in a set. -/
def squeeze (set : Octets) : Octets → Octets
  | a :: b :: rest =>
    if a = b ∧ set.contains a then squeeze set (b :: rest) else a :: squeeze set (b :: rest)
  | octets => octets

/-- Deletes or replaces octets of its input. -/
def translate (c : Call) : Effect :=
  let (letters, rest) := c.options
  let set (cs : List Char) := translateSet (cs.length + 1) cs
  let inOld (old : Octets) (b : UInt8) : Bool :=
    old.contains b != (letters.contains 'c' || letters.contains 'C')
  match rest.operands with
  | [] => c.failure ("missing operand" ++ c.helpText) 1
  | [old] =>
    if letters.contains 'd' then { out := c.input.filter fun b => !inOld (set old) b }
    else if letters.contains 's' then { out := squeeze (set old) c.input }
    else c.failure ("missing operand after '" ++ String.ofList old
      ++ "'\nTwo strings must be given when translating." ++ c.helpText) 1
  | old :: new :: _ =>
    let old := set old
    let new := set new
    let last := new.getLast?.getD 0
    let out := c.input.map fun b =>
      if letters.contains 'c' then (if old.contains b then b else last)
      else match old.idxOf? b with
        | some i => (new[i]?).getD last
        | none => b
    { out := if letters.contains 's' then squeeze new out else out }

/-- Two hexadecimal digits. -/
def hexPair (b : UInt8) : List Char :=
  let digits := Nat.toDigits 16 b.toNat
  List.replicate (2 - digits.length) '0' ++ digits

/-- Lines of sixteen octets in hexadecimal. -/
def dumpLines : Nat → Octets → List Char
  | 0, _ => []
  | _ + 1, [] => []
  | fuel + 1, input =>
    (input.take 16).flatMap (fun b => ' ' :: hexPair b) ++ '\n' :: dumpLines fuel (input.drop 16)

/-- Prints files or its input in hexadecimal. -/
def dump (c : Call) : Effect :=
  let isOption (cs : List Char) := cs.head? == some '-' && cs.length > 1
  let operands := (c.operands.dropWhile isOption)
  let read := if operands.isEmpty then [.ok c.input] else operands.map c.content
  let octets := (read.filterMap Except.toOption).flatten
  (Effect.gather (read.filterMap fun
    | .error effect => some effect
    | .ok _ => none)).append { out := octetsOf (dumpLines (octets.length + 1) octets) }

/-! ## Programs that know files -/

/-- The names in a directory, in the order of their octets. -/
def namesIn (files : FileTree) (directory : FileNames) : List Octets :=
  ((files.entries.filterMap fun e =>
    if e.1.dropLast = directory then e.1.getLast? else none).eraseDups).mergeSort octetsBefore

/-- Prints the names in directories. -/
def list (c : Call) : Effect :=
  let (letters, c) := c.options
  let operands := if c.operands.isEmpty then [['.']] else c.operands
  let shown (directory : FileNames) : Octets :=
    let names := (namesIn c.files directory).filter fun name =>
      name.head? != some 0x2E || letters.contains 'a' || letters.contains 'A'
    let names := if letters.contains 'a' then [[0x2E], [0x2E, 0x2E]] ++ names else names
    names.flatMap (· ++ [0x0A])
  let found := operands.map fun operand => (operand, c.files.follow c.here (pathOf operand))
  let missing := found.filterMap fun (operand, r) => match r with
    | .ok _ => none
    | .error fault => some (c.failure ("cannot access '" ++ String.ofList operand ++ "': "
        ++ fault.systemText) 2)
  let isDirectory (names : FileNames) :=
    c.files.entry? names == some .directory && !letters.contains 'd'
  let single := found.filterMap fun (operand, r) => match r with
    | .ok names => if isDirectory names then none else some (octetsOf operand)
    | .error _ => none
  let directories := found.filterMap fun (operand, r) => match r with
    | .ok names =>
      if isDirectory names then
        some ((if operands.length ≤ 1 then [] else octetsOf (operand ++ [':', '\n'])) ++ shown names)
      else none
    | .error _ => none
  let files := (single.mergeSort octetsBefore).flatMap (· ++ [0x0A])
  let blocks := (if files.isEmpty then [] else [files]) ++ directories
  (Effect.gather missing).append { out := List.intercalate [0x0A] blocks }

/-- Removes files. -/
def remove (c : Call) : Effect :=
  let (letters, c) := c.options
  let recursive := letters.contains 'r' || letters.contains 'R'
  let fail (operand : List Char) (reason : String) : Effect :=
    c.failure ("cannot remove '" ++ String.ofList operand ++ "': " ++ reason) 1
  if c.operands.isEmpty ∧ letters.contains 'f' then {}
  else c.inTurn "operand" fun c operand =>
    match c.place operand with
    | .error fault => if letters.contains 'f' then {} else fail operand fault.systemText
    | .ok names =>
      match c.files.entry? names with
      | none => if letters.contains 'f' then {} else fail operand FileFault.notFound.systemText
      | some .directory =>
        if recursive then { files := some (c.files.erase names) }
        else fail operand FileFault.isDirectory.systemText
      | some _ => { files := some (c.files.erase names) }

/-- Makes directories. -/
def makeDirectory (c : Call) : Effect :=
  let (letters, c) := c.options
  let fail (operand : List Char) (reason : String) : Effect :=
    c.failure ("cannot create directory '" ++ String.ofList operand ++ "': " ++ reason) 1
  c.inTurn "operand" fun c operand =>
    if letters.contains 'p' then
      let p := pathOf operand
      { files := some (c.files.makeDirectories [] ((if p.isAbsolute then [] else c.here)
          ++ FileTree.namesOf p)) }
    else match c.place operand with
      | .error fault => fail operand fault.systemText
      | .ok names =>
        if (c.files.entry? names).isSome then fail operand "File exists"
        else { files := some (c.files.put names .directory) }

/-- Makes empty files of those that are not there. -/
def touch (c : Call) : Effect :=
  c.options.2.inTurn "file operand" fun c operand =>
    match c.place operand with
    | .error fault =>
      c.failure ("cannot touch '" ++ String.ofList operand ++ "': " ++ fault.systemText) 1
    | .ok names =>
      if (c.files.entry? names).isSome then {} else { files := some (c.files.put names (.file [])) }

/-- Prints its input and writes it to files. -/
def tee (c : Call) : Effect :=
  let (letters, c) := c.options
  let written := if c.operands.isEmpty then {} else c.inTurn "operand" fun c operand =>
    match c.place operand with
    | .error fault => c.failure (String.ofList operand ++ ": " ++ fault.systemText) 1
    | .ok names =>
      match c.files.entry? names with
      | some .directory => c.failure (String.ofList operand ++ ": Is a directory") 1
      | some (.file before) =>
        { files := some (c.files.put names
            (.file (if letters.contains 'a' then before ++ c.input else c.input))) }
      | _ => { files := some (c.files.put names (.file c.input)) }
  { written with out := c.input }

/-! ## Programs about texts -/

/-- Prints numbers in a row. -/
def sequence (c : Call) : Effect :=
  let numbers := c.operands.map fun cs => (integer? cs).getD 0
  let (first, step, last) : Int × Int × Int := match numbers with
    | [last] => (1, 1, last)
    | [first, last] => (first, 1, last)
    | first :: step :: last :: _ => (first, step, last)
    | [] => (1, 1, 0)
  if step = 0 then c.failure ("invalid Zero increment value: '0'" ++ c.helpText) 1
  else
    let n := ((last - first) / step + 1).toNat
    { out := (List.range n).flatMap fun i =>
        Octets.ofString (toString (first + step * Int.ofNat i) ++ "\n") }

/-- The last part of a path, without an ending. -/
def baseName (c : Call) : Effect :=
  match c.options.2.operands with
  | [] => c.failure ("missing operand" ++ c.helpText) 1
  | operand :: rest =>
    let parts := (Path.split (octetsOf operand)).filter (· != [])
    let name := (parts.getLast?.getD (if operand.isEmpty then [] else [0x2F]))
    let ending := octetsOf (rest.headD [])
    let name := if ending.isSuffixOf name ∧ ending ≠ name then name.take (name.length - ending.length)
      else name
    { out := name ++ [0x0A] }

/-- The path of the directory a path is in. -/
def directoryName (c : Call) : Effect :=
  match c.options.2.operands with
  | [] => c.failure ("missing operand" ++ c.helpText) 1
  | operands => .gather (operands.map fun operand =>
    let isSlash (b : UInt8) : Bool := b == 0x2F
    let shorten (octets : Octets) : Octets := (octets.reverse.dropWhile isSlash).reverse
    let octets := octetsOf operand
    let above := (((shorten octets).reverse.dropWhile fun b => !isSlash b).reverse)
    let above := if above.isEmpty then (if (shorten octets).isEmpty ∧ !octets.isEmpty then [0x2F] else [0x2E])
      else if (shorten above).isEmpty then [0x2F] else shorten above
    { out := above ++ [0x0A] })

/-- Waits, if its operands are numbers. -/
def sleep (c : Call) : Effect :=
  match c.operands with
  | [] => c.failure ("missing operand" ++ c.helpText) 1
  | operands =>
    let isInterval (cs : List Char) : Bool :=
      let digits := (match cs.getLast? with
        | some u => if "smhd".toList.contains u then cs.dropLast else cs
        | none => cs)
      !digits.isEmpty && digits.all fun d => d.isDigit || d == '.'
    match operands.find? fun cs => !isInterval cs with
    | some cs => c.failure ("invalid time interval '" ++ String.ofList cs ++ "'" ++ c.helpText) 1
    | none => {}

/-- How many lines a program prints that would never end. -/
def endlessLines : Nat := 262144

/-- Prints a line again and again. -/
def repeated (c : Call) : Effect :=
  let line := octetsOf ((if c.operands.isEmpty then ['y'] else List.intercalate [' '] c.operands)
    ++ ['\n'])
  { out := (List.replicate endlessLines line).flatten }

/-- The programs with what they leave. -/
def utilities : List (String × (Call → Effect)) := [
  ("cat", cat), ("tr", translate), ("od", dump), ("sleep", sleep), ("head", head), ("tail", tail),
  ("wc", count), ("seq", sequence), ("ls", list), ("sort", sort), ("rm", remove),
  ("mkdir", makeDirectory), ("touch", touch), ("tee", tee), ("basename", baseName),
  ("dirname", directoryName), ("yes", repeated), ("echo", fun c => echoPlain c.operands)]

/-- What a program leaves, by its name. -/
def utility? (name : String) (c : Call) : Option Effect :=
  (utilities.find? (·.1 == name)).map fun u => u.2 c

end DiagnosticRelay.Shell
