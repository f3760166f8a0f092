/-!
# Blank characters

A character is blank when it has the Unicode property `White_Space`. The zero
width space and the byte order mark do not have it.

## Main definitions

* `Text.isBlank`: the property itself.
* `Text.trim`: a text without the blanks at its two ends.
-/

namespace DiagnosticRelay.Text

/-- The Unicode property `White_Space`. -/
def isBlank (c : Char) : Bool :=
  let n := c.toNat
  (0x9 ≤ n && n ≤ 0xD) || n == 0x20 || n == 0x85 || n == 0xA0 || n == 0x1680
    || (0x2000 ≤ n && n ≤ 0x200A) || n == 0x2028 || n == 0x2029 || n == 0x202F
    || n == 0x205F || n == 0x3000

/-- The characters without the blanks at either end. -/
def trimBlanks (cs : List Char) : List Char :=
  ((cs.dropWhile isBlank).reverse.dropWhile isBlank).reverse

/-- A text without the blanks at either end. -/
def trim (s : String) : String := String.ofList (trimBlanks s.toList)

end DiagnosticRelay.Text
