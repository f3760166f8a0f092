/-!
# Text measured in UTF-16 units

Editors count columns in UTF-16 code units: a character above `U+FFFF` takes
two, every other one.
-/

namespace DiagnosticRelay.Text

/-- How many UTF-16 units a character takes. -/
def unitCount (c : Char) : Nat := if c.toNat > 0xFFFF then 2 else 1

/-- The length of characters in UTF-16 units. -/
def unitsOf : List Char → Nat
  | [] => 0
  | c :: rest => unitCount c + unitsOf rest

/-- The length of a text in UTF-16 units. -/
def units (s : String) : Nat := unitsOf s.toList

/-- Lengths in units add up over concatenation. -/
theorem unitsOf_append (cs ds : List Char) : unitsOf (cs ++ ds) = unitsOf cs + unitsOf ds := by
  induction cs with
  | nil => simp [unitsOf]
  | cons c rest ih => simp [unitsOf, ih, Nat.add_assoc]

/-- Lengths in units add up over concatenation of texts. -/
@[simp] theorem units_append (s t : String) : units (s ++ t) = units s + units t := by
  simp [units, unitsOf_append]

end DiagnosticRelay.Text
