import DiagnosticRelay.Settings.Basic

/-!
# The settings channel

The settings in force, and receivers that learn of changes. Every change counts
up a version; a receiver has something new when the version it saw last is not
the current one.

## Main definitions

* `Channel`: the settings in force and what each receiver saw.
* `Channel.replace`, `Channel.subscribe`, `Channel.read`: its steps.
-/

namespace DiagnosticRelay

/-- The settings in force and what each receiver saw last. -/
structure Channel where
  current : Settings := {}
  version : Nat := 0
  seen : List Nat := []
  deriving DecidableEq, Repr

namespace Channel

/-- Puts other settings in force, if they are other ones. -/
def replace (c : Channel) (s : Settings) : Channel :=
  if c.current = s then c else { c with current := s, version := c.version + 1 }

/-- Whether putting settings in force changes anything. -/
def isChange (c : Channel) (s : Settings) : Bool := c.current != s

/-- A further receiver, which has seen what is in force. -/
def subscribe (c : Channel) : Channel := { c with seen := c.seen ++ [c.version] }

/-- A receiver reads what is in force. -/
def read (c : Channel) (receiver : Nat) : Channel :=
  { c with seen := c.seen.set receiver c.version }

/-- Whether a receiver that saw a version has something new. -/
def isNews (c : Channel) (version : Nat) : Bool := version != c.version

/-- For each receiver, whether it has something new. -/
def news (c : Channel) : List Bool := c.seen.map c.isNews

end Channel

end DiagnosticRelay
