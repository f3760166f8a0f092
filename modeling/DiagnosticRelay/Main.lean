import DiagnosticRelay.Check
import DiagnosticRelay.Server.Envelope
import DiagnosticRelay.Server.Framing
import DiagnosticRelay.Settings.Workspace
import DiagnosticRelay.Shell.Running

/-!
# The program

Dialogues are held with the disk and the standard streams. Command lines run in
the library's own shell, over a picture of the directory that is taken before
and written back after.

## Main definitions

* `Program.hold`: a dialogue with the world.
* `Program.serve`: the server on the standard streams.
* `main`: the program.
-/

namespace DiagnosticRelay.Program

open Json (Value)

/-! ## The disk -/

/-- Octets of an array. -/
def octetsOf (bytes : ByteArray) : Octets := bytes.toList

/-- The names of an absolute path. -/
def namesOf (path : String) : FileNames := FileTree.namesOf (Path.ofString path)

/-- A tree with a file as it is on the disk, if it can be read. -/
def addFile (t : FileTree) (path : String) : IO FileTree := do
  try
    return t.write (namesOf path) (.file (octetsOf (← IO.FS.readBinFile path)))
  catch _ => return t

/-- How deep a picture of a directory goes. -/
def pictureDepth : Nat := 32

/-- A tree with what is below a directory on the disk, so many levels deep. -/
def addDirectory : Nat → FileTree → String → IO FileTree
  | 0, t, _ => return t
  | depth + 1, t, path => do
    let mut t := t.write (namesOf path) .directory
    for entry in ← (← IO.FS.realPath path).readDir do
      let name := entry.path.toString
      if ← entry.path.isDir then t ← addDirectory depth t name
      else t ← addFile t name
    return t

/-- What a path is called on the disk, if it is there. -/
def realName? (p : Path) : IO (Option String) := do
  try return some (← IO.FS.realPath p.display).toString
  catch _ => return none

/-- A picture of the directory of a path. -/
def picture (p : Path) : IO FileTree := do
  match ← realName? p with
  | some name => addDirectory pictureDepth {} name
  | none => return {}

/-- Writes an entry to the disk. -/
def writeEntry (names : FileNames) : FileEntry → IO Unit
  | .directory => IO.FS.createDirAll (FileTree.pathOf names).display
  | .file content =>
    IO.FS.writeBinFile (FileTree.pathOf names).display (ByteArray.mk content.toArray)
  | .program _ => return ()

/-- Takes an entry from the disk. -/
def removeEntry (names : FileNames) : FileEntry → IO Unit
  | .directory => IO.FS.removeDirAll (FileTree.pathOf names).display
  | .file _ => IO.FS.removeFile (FileTree.pathOf names).display
  | .program _ => return ()

/-- Writes to the disk what is new in a tree, and takes from it what is gone. -/
def writeBack (before after : FileTree) : IO Unit := do
  for e in after.entries.reverse do
    unless before.entries.contains e do
      try writeEntry e.1 e.2 catch _ => pure ()
  for e in before.entries do
    if (after.entry? e.1).isNone then
      try removeEntry e.1 e.2 catch _ => pure ()

/-- The settings of a workspace on the disk. -/
def settingsAt (root : Path) : IO Settings := do
  let some name ← realName? root | return {}
  let mut files : FileTree := {}
  for file in Settings.fileNames do
    files ← addFile files (name ++ "/" ++ file)
  return Settings.ofWorkspace files [] (Path.ofString name)

/-- Runs a command line in a directory on the disk. -/
def executeAt (commandLine : String) (directory : Path) : IO Execution := do
  let before ← picture directory
  let named ← IO.getEnv "SHELL"
  let environment := named.toList.map fun name => ("SHELL", name)
  let real := (← realName? directory).getD directory.display
  let (execution, after) :=
    Shell.execute before environment (Shell.choose none named) commandLine [] (Path.ofString real)
  writeBack before after
  return execution

/-! ## The wire -/

/-- The streams of a server, the messages that came while it waited for something
else, and the number of its next query. -/
structure Wire where
  input : IO.FS.Stream
  output : IO.FS.Stream
  waiting : IO.Ref (List Value)
  number : IO.Ref Nat

namespace Wire

/-- Sends a value. -/
def send (w : Wire) (v : Value) : IO Unit := do
  w.output.putStr (Frame.text v)
  w.output.flush

/-- Reads the header lines: the length of the content, unless the input ends. -/
partial def readHeaders (w : Wire) (length : Option Nat) : IO (Option (Option Nat)) := do
  let line ← w.input.getLine
  if line.isEmpty then return none
  if Frame.isEnd line then return some length
  w.readHeaders ((Frame.length? line).orElse fun _ => length)

/-- Reads so many octets, or less if the input ends. -/
partial def readOctets (w : Wire) (count : Nat) (read : ByteArray) : IO ByteArray := do
  if count ≤ read.size then return read
  let more ← w.input.read (USize.ofNat (count - read.size))
  if more.isEmpty then return read
  w.readOctets count (read ++ more)

/-- Receives a value, unless the input ends. What is no value is answered. -/
partial def receive (w : Wire) : IO (Option Value) := do
  match ← w.readHeaders none with
  | none => return none
  | some none => w.receive
  | some (some length) =>
    let bytes ← w.readOctets length .empty
    match Frame.value? (octetsOf bytes).toStringLossy with
    | some v => return some v
    | none =>
      w.send (Envelope.ofRefusal .null .unreadable)
      w.receive

/-- Waits for the reply to a query; other messages are put aside. -/
partial def awaitReply (w : Wire) (number : Nat) : IO Reply := do
  match ← w.receive with
  | none => return .refusal
  | some v =>
    match Incoming.ofValue? v with
    | some (.reply id reply) =>
      if id.int? = some (number : Int) then return reply else w.awaitReply number
    | _ =>
      w.waiting.modify (· ++ [v])
      w.awaitReply number

/-- Asks the editor for something. -/
def ask (w : Wire) (q : Query) : IO Reply := do
  let number ← w.number.modifyGet fun n => (n, n + 1)
  w.send ((Message.query q).envelope number)
  w.awaitReply number

/-- The next message: one that was put aside, else one from the input. -/
def next (w : Wire) : IO (Option Value) := do
  match ← w.waiting.get with
  | v :: rest =>
    w.waiting.set rest
    return some v
  | [] => w.receive

end Wire

/-! ## The program -/

/-- A dialogue with the world. -/
def hold {α : Type} (w : Wire) : Dialogue α → IO α
  | .done a => return a
  | .tell n next => do
    w.send ((Message.notice n).envelope 0)
    hold w next
  | .ask q next => do hold w (next (← w.ask q))
  | .execute c p next => do hold w (next (← executeAt c p))
  | .consult p next => do hold w (next (← settingsAt p))

/-- Serves until the server is gone or the input ends. -/
partial def serve (w : Wire) (s : Server) : IO Unit := do
  if s.isGone then return
  match ← w.next with
  | none => return
  | some v =>
    let (after, answer) ← hold w (s.take v)
    for a in answer do
      w.send a
    serve w after

/-- The standard streams. -/
def standardWire : IO Wire := do
  return {
    input := ← IO.getStdin
    output := ← IO.getStdout
    waiting := ← IO.mkRef []
    number := ← IO.mkRef 0 }

/-- Carries out arguments: the exit code. -/
def run (arguments : List String) : IO UInt32 := do
  let here := Path.ofString (← IO.currentDir).toString
  let w ← standardWire
  let printout ← hold w (Instruction.printingArguments here arguments)
  IO.print printout.stdout
  IO.eprint printout.stderr
  match Instruction.ofArguments arguments with
  | .ok .serve => serve w { here }
  | _ => pure ()
  return UInt32.ofNat printout.code

end DiagnosticRelay.Program

/-- The program. -/
def main (arguments : List String) : IO UInt32 := DiagnosticRelay.Program.run arguments
