import DiagnosticRelay.Host.FileTree

/-!
# Effects of programs

A small program is a function of its operands, its input and the files; what it
leaves is an effect.

## Main definitions

* `Shell.Effect`: what a program leaves.
* `Shell.Effect.append`: two parts of a job.
-/

namespace DiagnosticRelay.Shell

/-- What a program leaves. -/
structure Effect where
  status : Nat := 0
  out : Octets := []
  err : Octets := []
  /-- The files afterwards, if it changed any. -/
  files : Option FileTree := none

/-- The octets of characters. -/
def octetsOf (cs : List Char) : Octets := Octets.ofString (String.ofList cs)

/-- The path of characters. -/
def pathOf (cs : List Char) : Path := ⟨octetsOf cs⟩

namespace Effect

/-- A failure with a message. -/
def failure (status : Nat) (message : String) : Effect :=
  { status, err := Octets.ofString (message ++ "\n") }

/-- Joins effects of parts of a job: the worst status is that of all. -/
def append (a b : Effect) : Effect :=
  ⟨max a.status b.status, a.out ++ b.out, a.err ++ b.err, b.files.orElse fun _ => a.files⟩

/-- Joins effects of parts of a job, which leave the files alone. -/
def gather (effects : List Effect) : Effect where
  status := (effects.map Effect.status).foldl max 0
  out := effects.flatMap Effect.out
  err := effects.flatMap Effect.err

end Effect

/-- A decimal number with a sign. -/
def integer? (cs : List Char) : Option Int :=
  let digits? (cs : List Char) : Option Nat :=
    if !cs.isEmpty && cs.all Char.isDigit then (String.ofList cs).toNat? else none
  match cs with
  | '-' :: rest => (digits? rest).map fun n => -Int.ofNat n
  | '+' :: rest => (digits? rest).map Int.ofNat
  | cs => (digits? cs).map Int.ofNat

/-- A decimal number. -/
def natural? (cs : List Char) : Option Nat :=
  if !cs.isEmpty && cs.all Char.isDigit then (String.ofList cs).toNat? else none

end DiagnosticRelay.Shell
