/-!
# Shortest decimals of binary floating-point numbers

A finite double is the centre of an interval of reals that round to it. Of the
decimals in that interval the shortest is written, and of two equally short
ones the nearer. All tests are exact comparisons of natural numbers.

## Main definitions

* `Decimal`: digits and a power of ten.
* `Binary.ofFloat`: mantissa and exponent of a positive finite double.
* `Binary.shortest`: the decimal to write.
* `Decimal.render`: its text, positional for middling magnitudes.
-/

namespace DiagnosticRelay

/-- The number `digits * 10 ^ exponent`. -/
structure Decimal where
  digits : Nat
  exponent : Int
  deriving DecidableEq, Repr

/-- The positive number `mantissa * 2 ^ exponent`; `narrow` marks a number whose
lower neighbour is only half as far away as its upper one. -/
structure Binary where
  mantissa : Nat
  exponent : Int
  narrow : Bool
  deriving DecidableEq, Repr

namespace Binary

/-- The absolute value of a finite double. -/
def ofFloat (x : Float) : Binary :=
  let bits := x.toBits.toNat
  let fraction : Nat := bits % Nat.pow 2 52
  let biased : Nat := bits / Nat.pow 2 52 % 2048
  if biased = 0 then ⟨fraction, -1074, false⟩
  else ⟨fraction + Nat.pow 2 52, (biased : Int) - 1075, fraction == 0 && biased > 1⟩

/-- Compares `a * 2 ^ e` with `b * 10 ^ f`. -/
def compareScaled (a : Nat) (e : Int) (b : Nat) (f : Int) : Ordering :=
  compare (a * Nat.pow 2 e.toNat * Nat.pow 10 (-f).toNat)
    (b * Nat.pow 10 f.toNat * Nat.pow 2 (-e).toNat)

/-- Whether a decimal rounds to this number. The ends of the interval belong to
it exactly when the mantissa is even. -/
def Rounds (x : Binary) (d : Decimal) : Bool :=
  let low := if x.narrow then 4 * x.mantissa - 1 else 4 * x.mantissa - 2
  let high := 4 * x.mantissa + 2
  let even := x.mantissa % 2 == 0
  let below := compareScaled low (x.exponent - 2) d.digits d.exponent
  let above := compareScaled high (x.exponent - 2) d.digits d.exponent
  (below == .lt || (even && below == .eq)) && (above == .gt || (even && above == .eq))

/-- The whole number of units `10 ^ f` in this number, rounded down. -/
def floorAt (x : Binary) (f : Int) : Nat :=
  (x.mantissa * Nat.pow 2 x.exponent.toNat * Nat.pow 10 (-f).toNat)
    / (Nat.pow 10 f.toNat * Nat.pow 2 (-x.exponent).toNat)

/-- Whether the upper neighbour on the grid of unit `10 ^ f` is the nearer one;
in the middle the even one is. -/
def upperNearer (x : Binary) (f : Int) (low : Nat) : Bool :=
  match compareScaled (2 * x.mantissa) x.exponent (2 * low + 1) f with
  | .gt => true
  | .eq => low % 2 == 1
  | .lt => false

/-- The decimal with unit `10 ^ f` that rounds to this number, if there is one;
only the two neighbours on that grid can. -/
def onGrid? (x : Binary) (f : Int) : Option Decimal :=
  let low := x.floorAt f
  let down : Decimal := ⟨low, f⟩
  let up : Decimal := ⟨low + 1, f⟩
  match x.Rounds down, x.Rounds up with
  | true, true => some (if x.upperNearer f low then up else down)
  | true, false => some down
  | false, true => some up
  | false, false => none

/-- The number of decimal digits before the point; not positive for numbers
below one tenth. -/
def magnitude (x : Binary) : Int :=
  let whole := x.floorAt 0
  if whole > 0 then (Nat.toDigits 10 whole).length
  else
    let scaled := x.floorAt (-400)
    ((Nat.toDigits 10 scaled).length : Int) - 400

/-- The first grid, from one digit on, that holds a decimal of this number. -/
def shortestFrom (x : Binary) (magnitude : Int) : Nat → Nat → Decimal
  | 0, _ => ⟨0, 0⟩
  | fuel + 1, n =>
    match x.onGrid? (magnitude - n) with
    | some d => d
    | none => x.shortestFrom magnitude fuel (n + 1)

/-- The shortest decimal that rounds to this number; seventeen digits always
suffice. -/
def shortest (x : Binary) : Decimal :=
  if x.mantissa = 0 then ⟨0, 0⟩ else x.shortestFrom x.magnitude 18 1

end Binary

namespace Decimal

/-- Drops the zeros at the end of the digits. -/
def strip (d : Decimal) : Nat → Decimal
  | 0 => d
  | fuel + 1 =>
    if d.digits ≠ 0 ∧ d.digits % 10 = 0 then strip ⟨d.digits / 10, d.exponent + 1⟩ fuel else d

/-- Magnitudes from `10 ^ -5` up to `10 ^ 16` are written positionally with at
least one decimal; the others with an exponent that always shows its sign. -/
def render (decimal : Decimal) : String :=
  let d := decimal.strip 400
  let digits := Nat.toDigits 10 d.digits
  let point : Int := digits.length + d.exponent
  if d.digits = 0 then "0.0"
  else if -5 < point ∧ point ≤ 16 then
    if d.exponent ≥ 0 then String.ofList (digits ++ List.replicate d.exponent.toNat '0' ++ ['.', '0'])
    else if point > 0 then
      String.ofList (digits.take point.toNat ++ '.' :: digits.drop point.toNat)
    else String.ofList ('0' :: '.' :: List.replicate (-point).toNat '0' ++ digits)
  else
    let power := point - 1
    let fraction := digits.drop 1
    String.ofList (digits.take 1 ++ (if fraction.isEmpty then [] else '.' :: fraction) ++ ['e']
      ++ (if power < 0 then ['-'] else ['+']) ++ Nat.toDigits 10 power.natAbs)

end Decimal

/-- The text of a finite double: its shortest decimal, with a sign for negative
numbers and negative zero. -/
def Decimal.renderFloat (x : Float) : String :=
  let body := (Binary.ofFloat x).shortest.render
  if x.toBits.toNat / Nat.pow 2 63 = 1 then "-" ++ body else body

end DiagnosticRelay
