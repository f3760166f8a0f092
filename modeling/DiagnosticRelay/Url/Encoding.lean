import DiagnosticRelay.Text.Utf8

/-!
# Percent-encoding

An octet is written as `%` and two upper-case hexadecimal digits when it is a
control, is not ASCII, or belongs to the set of the place it is written in.

## Main definitions

* `Url.Set`: the octets that a place encodes besides controls and non-ASCII.
* `Url.encode`: the encoded form of octets.
* `Url.decode`: the octets of an encoded text; a stray `%` stays.
-/

namespace DiagnosticRelay.Url

/-- The ASCII characters that a place of a URL encodes. -/
abbrev Set := List Char

/-- Nothing but controls and non-ASCII octets is encoded. -/
def controls : Set := []

/-- The set of fragments. -/
def fragmentSet : Set := [' ', '"', '<', '>', '\x60']

/-- The set of queries. -/
def querySet : Set := [' ', '"', '#', '<', '>']

/-- The set of queries of special URLs. -/
def specialQuerySet : Set := '\'' :: querySet

/-- The set of paths. -/
def pathSet : Set := fragmentSet ++ ['#', '?', '\x7b', '\x7d']

/-- The set of user names and passwords. -/
def userinfoSet : Set := pathSet ++ ['/', ':', ';', '=', '@', '[', '\\', ']', '^', '|']

/-- The set of a single path segment of a special URL. -/
def segmentSet : Set := pathSet ++ ['/', '%', '\\']

/-- An upper-case hexadecimal digit. -/
def upperHex (n : Nat) : Char := if n < 10 then Char.ofNat (48 + n) else Char.ofNat (55 + n)

/-- Whether an octet is encoded. -/
def isEncoded (set : Set) (b : UInt8) : Bool :=
  b < 0x20 || 0x7F ≤ b || set.contains (Char.ofNat b.toNat)

/-- An octet as it is written. -/
def encodeOctet (set : Set) (b : UInt8) : List Char :=
  if isEncoded set b then ['%', upperHex (b.toNat / 16), upperHex (b.toNat % 16)]
  else [Char.ofNat b.toNat]

/-- The encoded form of octets. -/
def encode (set : Set) (octets : Octets) : List Char := octets.flatMap (encodeOctet set)

/-- The encoded form of characters. -/
def encodeChars (set : Set) (cs : List Char) : List Char :=
  encode set (Octets.ofString (String.ofList cs))

/-- The value of a hexadecimal digit. -/
def hexValue? (c : Char) : Option Nat :=
  if '0' ≤ c ∧ c ≤ '9' then some (c.toNat - 48)
  else if 'A' ≤ c ∧ c ≤ 'F' then some (c.toNat - 55)
  else if 'a' ≤ c ∧ c ≤ 'f' then some (c.toNat - 87)
  else none

/-- The octet of two hexadecimal digits. -/
def hexOctet? (a b : Char) : Option UInt8 :=
  match hexValue? a, hexValue? b with
  | some a, some b => some (UInt8.ofNat (a * 16 + b))
  | _, _ => none

/-- The octets of an encoded text. -/
def decode : List Char → Octets
  | [] => []
  | '%' :: a :: b :: rest =>
    match hexOctet? a b with
    | some octet => octet :: decode rest
    | none => 0x25 :: decode (a :: b :: rest)
  | c :: rest => Octets.ofString (String.singleton c) ++ decode rest

end DiagnosticRelay.Url
