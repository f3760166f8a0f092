import DiagnosticRelay.Json.Fault

/-!
# JSON numbers

A number written with digits alone is an integer when it lies between
`-2 ^ 63` and `2 ^ 64`; every other number is a double. The double is computed
from the first digits that fit 64 bits and a power of ten, one rounding after
the other, so its last digits can differ from the nearest double.

## Main definitions

* `Json.Number`: an integer or a double.
* `Json.Number.read`: a number with its value.
* `Json.Number.skip`: a number without one; its magnitude does not matter.
-/

namespace DiagnosticRelay.Json

/-- A number in a JSON text. -/
inductive Number where
  | integer (value : Int)
  | double (value : Float)
  deriving Repr

/-- Something read, the offset after it and the characters after it. -/
structure Read (α : Type) where
  value : α
  offset : Nat
  rest : List Char

/-- The offset one past the next octet, or the end. -/
def offsetPast (offset : Nat) : List Char → Nat
  | [] => offset
  | _ => offset + 1

namespace Number

/-- The value of a decimal digit. -/
def digit (c : Char) : Nat := c.toNat - '0'.toNat

/-- Extends a significand by digits as long as it fits 64 bits, counting them. -/
def extend (significand count offset : Nat) : List Char → Read (Nat × Nat)
  | [] => ⟨(significand, count), offset, []⟩
  | c :: rest =>
    if c.isDigit ∧ significand * 10 + digit c < UInt64.size then
      extend (significand * 10 + digit c) (count + 1) (offset + 1) rest
    else ⟨(significand, count), offset, c :: rest⟩

/-- Passes over digits, counting them. -/
def passDigits (count offset : Nat) : List Char → Read Nat
  | [] => ⟨count, offset, []⟩
  | c :: rest =>
    if c.isDigit then passDigits (count + 1) (offset + 1) rest else ⟨count, offset, c :: rest⟩

/-- Whether the next character is a digit. -/
def digitNext : List Char → Bool
  | c :: _ => c.isDigit
  | [] => false

/-- `10 ^ n` as a double. -/
def powerOfTen (n : Nat) : Float := Float.ofScientific 1 false n

/-- Scales a double down by `10 ^ n` in steps of `10 ^ 308`. -/
def scaleDown (x : Float) (n : Nat) : Float :=
  if h : n ≤ 308 then x / powerOfTen n
  else if x == 0 then x
  else scaleDown (x / powerOfTen 308) (n - 308)
termination_by n

/-- `significand * 10 ^ exponent`; absent when it exceeds every double. -/
def scale? (significand : Nat) (exponent : Int) : Option Float :=
  let x := (UInt64.ofNat significand).toFloat
  if 308 < exponent then (if significand = 0 then some x else none)
  else if 0 ≤ exponent then
    let y := x * powerOfTen exponent.toNat
    if y.isInf then none else some y
  else some (scaleDown x (-exponent).toNat)

/-- The double with a sign, a significand and an exponent. -/
def assemble (negative : Bool) (significand : Nat) (exponent : Int) (offset : Nat)
    (rest : List Char) : Except Fault (Read Number) :=
  match scale? significand exponent with
  | none => .error ⟨.numberOutOfRange, offset⟩
  | some x => .ok ⟨.double (if negative then -x else x), offset, rest⟩

/-- The greatest exponent that is computed with. -/
def greatestExponent : Nat := 2147483647

/-- Reads exponent digits while the exponent is small enough to compute with. -/
def exponentDigits (value offset : Nat) : List Char → Read (Nat × Bool)
  | [] => ⟨(value, true), offset, []⟩
  | c :: rest =>
    if c.isDigit then
      if value * 10 + digit c ≤ greatestExponent then
        exponentDigits (value * 10 + digit c) (offset + 1) rest
      else ⟨(value, false), offset + 1, rest⟩
    else ⟨(value, true), offset, c :: rest⟩

/-- The sign in front of exponent digits. -/
def exponentSign (offset : Nat) : List Char → Read Bool
  | '+' :: rest => ⟨false, offset + 1, rest⟩
  | '-' :: rest => ⟨true, offset + 1, rest⟩
  | rest => ⟨false, offset, rest⟩

/-- Reads the exponent after its letter. -/
def readExponent (negative : Bool) (significand : Nat) (start : Int) (offset : Nat)
    (rest : List Char) : Except Fault (Read Number) :=
  let sign := exponentSign offset rest
  match sign.rest with
  | [] => .error ⟨.endInValue, sign.offset⟩
  | c :: after =>
    if c.isDigit then
      let power := exponentDigits (digit c) (sign.offset + 1) after
      if power.value.2 then
        assemble negative significand
          (if sign.value then start - power.value.1 else start + power.value.1)
          power.offset power.rest
      else if significand ≠ 0 ∧ sign.value = false then
        .error ⟨.numberOutOfRange, power.offset⟩
      else
        let passed := passDigits 0 power.offset power.rest
        .ok ⟨.double (if negative then -0.0 else 0.0), passed.offset, passed.rest⟩
    else .error ⟨.malformedNumber, sign.offset + 1⟩

/-- Goes on with an exponent, if one follows, or finishes the double. -/
def finishDouble (negative : Bool) (significand : Nat) (exponent : Int) (offset : Nat)
    (rest : List Char) : Except Fault (Read Number) :=
  match rest with
  | 'e' :: after | 'E' :: after => readExponent negative significand exponent (offset + 1) after
  | _ => assemble negative significand exponent offset rest

/-- Reads the decimals after the point. Those that no longer fit are dropped. -/
def readFraction (negative : Bool) (significand : Nat) (start : Int) (offset : Nat)
    (rest : List Char) : Except Fault (Read Number) :=
  let fraction := extend significand 0 offset rest
  let exponent := start - fraction.value.2
  if digitNext fraction.rest then
    let passed := passDigits 0 fraction.offset fraction.rest
    finishDouble negative fraction.value.1 exponent passed.offset passed.rest
  else if fraction.value.2 = 0 then
    match fraction.rest with
    | [] => .error ⟨.endInValue, fraction.offset⟩
    | _ => .error ⟨.malformedNumber, fraction.offset + 1⟩
  else finishDouble negative fraction.value.1 exponent fraction.offset fraction.rest

/-- The integer with a sign and a magnitude below `2 ^ 64`, a double where the
integer would not fit; `-0` is the double negative zero. -/
def ofMagnitude (negative : Bool) (magnitude : Nat) : Number :=
  if negative then
    if magnitude = 0 ∨ UInt64.size / 2 < magnitude then .double (-(UInt64.ofNat magnitude).toFloat)
    else .integer (-(magnitude : Int))
  else .integer magnitude

/-- Goes on after the whole digits. -/
def afterWhole (negative : Bool) (significand : Nat) (offset : Nat) (rest : List Char) :
    Except Fault (Read Number) :=
  match rest with
  | '.' :: after => readFraction negative significand 0 (offset + 1) after
  | 'e' :: after | 'E' :: after => readExponent negative significand 0 (offset + 1) after
  | _ => .ok ⟨ofMagnitude negative significand, offset, rest⟩

/-- Goes on after whole digits that fit no longer: the others only count. -/
def afterLongWhole (negative : Bool) (significand : Nat) (offset : Nat) (rest : List Char) :
    Except Fault (Read Number) :=
  let passed := passDigits 0 offset rest
  match passed.rest with
  | '.' :: after => readFraction negative significand passed.value (passed.offset + 1) after
  | _ => finishDouble negative significand passed.value passed.offset passed.rest

/-- Reads a number after its sign. -/
def readMagnitude (negative : Bool) (offset : Nat) : List Char → Except Fault (Read Number)
  | [] => .error ⟨.endInValue, offset⟩
  | '0' :: rest =>
    if digitNext rest then .error ⟨.malformedNumber, offset + 2⟩
    else afterWhole negative 0 (offset + 1) rest
  | c :: rest =>
    if c.isDigit then
      let whole := extend (digit c) 1 (offset + 1) rest
      if digitNext whole.rest then afterLongWhole negative whole.value.1 whole.offset whole.rest
      else afterWhole negative whole.value.1 whole.offset whole.rest
    else .error ⟨.malformedNumber, offset + 1⟩

/-- Reads a number that starts with a sign or a digit. -/
def read (offset : Nat) : List Char → Except Fault (Read Number)
  | '-' :: rest => readMagnitude true (offset + 1) rest
  | rest => readMagnitude false offset rest

/-- Passes over an exponent after its letter. -/
def skipExponent (offset : Nat) (rest : List Char) : Except Fault (Read Unit) :=
  let sign := exponentSign offset rest
  if digitNext sign.rest then
    let passed := passDigits 0 sign.offset sign.rest
    .ok ⟨(), passed.offset, passed.rest⟩
  else .error ⟨.malformedNumber, offsetPast sign.offset sign.rest⟩

/-- Passes over an exponent, if one follows. -/
def skipTail (offset : Nat) (rest : List Char) : Except Fault (Read Unit) :=
  match rest with
  | 'e' :: after | 'E' :: after => skipExponent (offset + 1) after
  | _ => .ok ⟨(), offset, rest⟩

/-- Passes over decimals and an exponent, if they follow. -/
def skipFraction (offset : Nat) (rest : List Char) : Except Fault (Read Unit) :=
  match rest with
  | '.' :: after =>
    if digitNext after then
      let passed := passDigits 0 (offset + 1) after
      skipTail passed.offset passed.rest
    else .error ⟨.malformedNumber, offsetPast (offset + 1) after⟩
  | _ => skipTail offset rest

/-- Passes over a number after its sign. -/
def skipMagnitude (offset : Nat) : List Char → Except Fault (Read Unit)
  | [] => .error ⟨.malformedNumber, offset⟩
  | '0' :: rest =>
    if digitNext rest then .error ⟨.malformedNumber, offset + 2⟩
    else skipFraction (offset + 1) rest
  | c :: rest =>
    if c.isDigit then
      let passed := passDigits 0 (offset + 1) rest
      skipFraction passed.offset passed.rest
    else .error ⟨.malformedNumber, offset + 1⟩

/-- Passes over a number that starts with a sign or a digit. -/
def skip (offset : Nat) : List Char → Except Fault (Read Unit)
  | '-' :: rest => skipMagnitude (offset + 1) rest
  | rest => skipMagnitude offset rest

end Number

end DiagnosticRelay.Json
