import DiagnosticRelay.Json.Document
import DiagnosticRelay.Json.Printer
import DiagnosticRelay.Text.Utf8

/-!
# Frames

A message on a stream is a frame: header lines, of which one tells the length of
the content in octets, an empty line, and the content.

## Main definitions

* `Frame.text`: the frame of a value.
* `Frame.length?`: the length that a header line tells.
* `Frame.value?`: the value of a content.
-/

namespace DiagnosticRelay.Frame

open Json (Value Document)

/-- The name of the header that tells the length. -/
def lengthName : String := "Content-Length"

/-- The frame of a value. -/
def text (v : Value) : String :=
  let content := v.render
  lengthName ++ ": " ++ toString content.utf8ByteSize ++ "\r\n\r\n" ++ content

/-- Whether a character is a blank of a header line. -/
def isBlank (c : Char) : Bool := c == ' ' || c == '\t' || c == '\r' || c == '\n'

/-- Characters without blanks at their ends. -/
def trim (cs : List Char) : List Char :=
  ((cs.dropWhile isBlank).reverse.dropWhile isBlank).reverse

/-- The name and the content of a header line. -/
def header? (line : String) : Option (String × String) :=
  let name := line.toList.takeWhile (· != ':')
  match line.toList.drop name.length with
  | [] => none
  | _ :: content => some (String.ofList (trim name), String.ofList (trim content))

/-- The length that a header line tells, if it is the one that does. -/
def length? (line : String) : Option Nat := do
  let (name, content) ← header? line
  if name.toLower = lengthName.toLower then content.toNat? else none

/-- Whether a header line ends the headers. -/
def isEnd (line : String) : Bool := (trim line.toList).isEmpty

/-- How deep the values of a content may nest. -/
def depth : Nat := 128

/-- The value of a content. -/
def value? (content : String) : Option Value := ((Document.ofString content).value depth).toOption

end DiagnosticRelay.Frame
