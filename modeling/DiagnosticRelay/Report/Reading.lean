import DiagnosticRelay.Report.Schema

/-!
# Reading reports

The outer records of a report are fitted while its syntax is walked, so that
the first thing wrong in the text is what is reported, whether it is syntax or
a misfit. Values of unknown keys are passed over.

## Main definitions

* `Report.Defect`: what can be wrong with a report.
* `Report.Malformed`: a defect and its position.
* `Report.ofDocument`: the report of a document.
* `Report.parse`: the report of a text.
-/

namespace DiagnosticRelay

open Json (Node Items Members Value Fault Found Position)

namespace Report

/-- What can be wrong with a report. -/
inductive Defect where
  | syntaxFault (reason : Json.Reason)
  | wrongType (found : Found) (wanted : String)
  | integerOutOfRange (value : Int) (wanted : String)
  | repeatedField (key : String)
  | files (defect : FilesDefect)

/-- The wording of a defect. -/
def Defect.message : Defect → String
  | .syntaxFault reason => reason.message
  | .wrongType found wanted => "invalid type: " ++ found.message ++ ", expected " ++ wanted
  | .integerOutOfRange n wanted => "invalid value: integer `" ++ toString n ++ "`, expected " ++ wanted
  | .repeatedField key => "duplicate field `" ++ key ++ "`"
  | .files .misfit => "data did not match any variant of untagged enum Files"
  | .files .listed => "expected `files` to be an object keyed by path"

/-- A defect and the offset it is reported at. -/
structure Complaint where
  defect : Defect
  offset : Nat

/-- The complaint about a fault of the syntax. -/
def Complaint.ofFault (fault : Fault) : Complaint := ⟨.syntaxFault fault.reason, fault.offset⟩

/-- Why a field is not read: a complaint at its place, or a defect whose place
is where the record around it looks for its end. -/
inductive Refusal where
  | here (complaint : Complaint)
  | around (defect : Defect)

/-- The complaint of a refusal in a record that settles at an offset. -/
def Refusal.complaint (settled : Nat) : Refusal → Complaint
  | .here complaint => complaint
  | .around defect => ⟨defect, settled⟩

/-- A field of a record `σ`: its key and how its node is entered. The number is
how many brackets may still be opened. -/
structure Field (σ : Type) where
  key : String
  enter : Nat → Node → σ → Except Refusal σ

/-- A node that is none of the wanted values. -/
def wrongType (wanted : String) : Node → Complaint
  | .scalar value stop => ⟨.wrongType (.scalar value) wanted, stop⟩
  | .unreadable fault => .ofFault fault
  | .broken reading _ => .ofFault reading
  | .array start _ => ⟨.wrongType .list wanted, start⟩
  | .object start _ => ⟨.wrongType .map wanted, start⟩

/-- The end of an array form all of whose fields have been read. -/
def itemsEnd {σ : Type} (record : σ) : Items → Except Complaint σ
  | .close _ => .ok record
  | .item start _ _ => .error ⟨.syntaxFault .trailingCharacters, start + 1⟩
  | .broken _ _ ending _ => .error (.ofFault ending)

/-- Enters the items of the array form of a record. -/
def enterItems {σ : Type} (depth : Nat) : List (Field σ) → Items → σ → Except Complaint σ
  | [], items, record => itemsEnd record items
  | _ :: _, .close _, record => .ok record
  | _ :: _, .broken reading _ _ _, _ => .error (.ofFault reading)
  | field :: fields, .item _ value next, record =>
    match field.enter depth value record with
    | .error refusal => .error (refusal.complaint next.settled)
    | .ok record => enterItems depth fields next record

/-- Enters the members of the object form of a record; `seen` holds the known
keys entered so far. -/
def enterMembers {σ : Type} (depth : Nat) (fields : List (Field σ)) :
    Members → List String → σ → Except Complaint σ
  | .close _, _, record => .ok record
  | .broken reading _ _, _, _ => .error (.ofFault reading)
  | .lone _ (.error fault) _ _, _, _ => .error (.ofFault fault)
  | .lone _ (.ok key) fault settled, seen, _ =>
    if key ∈ seen then .error ⟨.repeatedField key, settled⟩ else .error (.ofFault fault)
  | .member _ (.error fault) _ _ _, _, _ => .error (.ofFault fault)
  | .member _ (.ok key) colon value next, seen, record =>
    match fields.find? (·.key == key) with
    | none =>
      match value.skip with
      | .error fault => .error (.ofFault fault)
      | .ok () => enterMembers depth fields next seen record
    | some field =>
      if key ∈ seen then .error ⟨.repeatedField key, colon⟩
      else match field.enter depth value record with
        | .error refusal => .error (refusal.complaint next.settled)
        | .ok record => enterMembers depth fields next (key :: seen) record

/-- Enters a record: an object, or an array of its fields in order. -/
def enterRecord {σ : Type} (wanted : String) (fields : List (Field σ)) (depth : Nat)
    (node : Node) (record : σ) : Except Complaint σ :=
  match node, depth with
  | .array start _, 0 => .error ⟨.syntaxFault .nestedTooDeep, start + 1⟩
  | .array _ items, depth + 1 => enterItems depth fields items record
  | .object start _, 0 => .error ⟨.syntaxFault .nestedTooDeep, start + 1⟩
  | .object _ members, depth + 1 => enterMembers depth fields members [] record
  | node, _ => .error (wrongType wanted node)

/-- A counter: an integer from zero up to `2 ^ 64 - 1`. -/
def counter : Node → Except Refusal UInt64
  | .scalar (.number (.integer n)) stop =>
    if 0 ≤ n then .ok (UInt64.ofNat n.toNat)
    else .error (.here ⟨.integerOutOfRange n "u64", stop⟩)
  | node => .error (.here (wrongType "u64" node))

/-- The counters of the totals. -/
def totalsFields : List (Field Totals) := [
  ⟨"errors", fun _ node totals => do return { totals with errors := ← counter node }⟩,
  ⟨"file_errors", fun _ node totals => do return { totals with fileErrors := ← counter node }⟩]

/-- The text of a string node. -/
def stringOf : Node → Except Complaint String
  | .scalar (.string s) _ => .ok s
  | node => .error (wrongType "a string" node)

/-- The texts of items that have to be strings. -/
def stringsOf : Items → Except Complaint (List String)
  | .close _ => .ok []
  | .broken reading _ _ _ => .error (.ofFault reading)
  | .item _ value next => do
    let s ← stringOf value
    let rest ← stringsOf next
    return s :: rest

/-- A list of strings. -/
def stringList (depth : Nat) (node : Node) : Except Complaint (List String) :=
  match node, depth with
  | .array start _, 0 => .error ⟨.syntaxFault .nestedTooDeep, start + 1⟩
  | .array _ items, _ + 1 => stringsOf items
  | node, _ => .error (wrongType "a sequence" node)

/-- The files, read as one value and then fitted. -/
def filesOf (depth : Nat) (node : Node) : Except Refusal (List (String × FileResult)) :=
  match node.value depth with
  | .error fault => .error (.here (.ofFault fault))
  | .ok v => (Report.filesOfValue? v).mapError fun defect => .around (.files defect)

/-- The parts of a report. -/
def fields : List (Field Report) := [
  ⟨"files", fun depth node report => do return { report with files := ← filesOf depth node }⟩,
  ⟨"totals", fun depth node report => do return { report with
    totals := ← (enterRecord "struct Totals" totalsFields depth node {}).mapError .here }⟩,
  ⟨"errors", fun depth node report => do return { report with
    errors := ← (stringList depth node).mapError .here }⟩]

/-- How many brackets may be open at once. -/
def deepest : Nat := 127

/-- The report of a document. -/
def ofDocument (document : Json.Document) : Except Complaint Report := do
  let report ← enterRecord "struct AnalysisReport" fields deepest document.root {}
  match document.trailing with
  | none => return report
  | some fault => throw (.ofFault fault)

/-- A defect and its position. -/
structure Malformed where
  defect : Defect
  position : Position

/-- The wording of a malformed report. -/
def Malformed.message (m : Malformed) : String := m.defect.message ++ m.position.message

/-- The report of a text. -/
def parse (text : String) : Except Malformed Report :=
  (ofDocument (Json.Document.ofString text)).mapError fun complaint =>
    ⟨complaint.defect, Position.ofOffset text complaint.offset⟩

end Report

end DiagnosticRelay
