import DiagnosticRelay.Url.Encoding
import DiagnosticRelay.Url.Fault

/-!
# Hosts

The host of a special URL is a domain, an IPv4 address or an IPv6 address; the
host of any other URL is an IPv6 address or an uninterpreted name.

## Main definitions

* `Url.Host`: a host.
* `Url.Host.parse`, `Url.Host.parsePlain`: reading one.
* `Url.Host.render`: writing one.
-/

namespace DiagnosticRelay.Url

/-- A host. -/
inductive Host where
  | domain (name : List Char)
  | ipv4 (address : Nat)
  | ipv6 (pieces : List Nat)
  deriving DecidableEq, Repr

namespace Host

/-- Parts of a text between occurrences of a character. -/
def splitAt (sep : Char) : List Char → List (List Char)
  | [] => [[]]
  | c :: rest =>
    if c = sep then [] :: splitAt sep rest
    else match splitAt sep rest with
      | [] => [[c]]
      | part :: parts => (c :: part) :: parts

/-- A number in a base up to sixteen; absent when a character is no digit. -/
def numeral? (base : Nat) (cs : List Char) : Option Nat :=
  cs.foldlM (fun n c => do
    let d ← hexValue? c
    if d < base then some (n * base + d) else none) 0

/-- A part of an IPv4 address: decimal, `0x` hexadecimal or `0` octal. -/
def ipv4Part? : List Char → Option Nat
  | [] => none
  | ['0'] => some 0
  | '0' :: 'x' :: rest => numeral? 16 rest
  | '0' :: 'X' :: rest => numeral? 16 rest
  | '0' :: rest => numeral? 8 rest
  | cs => numeral? 10 cs

/-- The parts of a dotted name, without an empty last one. -/
def dotted (name : List Char) : List (List Char) :=
  let parts := splitAt '.' name
  if parts.length > 1 ∧ parts.getLast? = some [] then parts.dropLast else parts

/-- Whether a name has to be an IPv4 address: its last part is a number. -/
def endsInNumber (name : List Char) : Bool :=
  match (dotted name).getLast? with
  | none | some [] => false
  | some part => part.all Char.isDigit || (ipv4Part? part).isSome

/-- The address of parts: each but the last is one octet. -/
def ipv4Of? (parts : List Nat) : Option Nat :=
  match parts.reverse with
  | [] => none
  | last :: before =>
    if before.all (· < 256) && last < Nat.pow 256 (5 - parts.length) && parts.length ≤ 4 then
      some (before.reverse.zipIdx.foldl (fun sum p => sum + p.1 * Nat.pow 256 (3 - p.2)) last)
    else none

/-- The IPv4 address of a dotted name. -/
def ipv4? (name : List Char) : Option Nat := ((dotted name).mapM ipv4Part?).bind ipv4Of?

/-- A piece of an IPv6 address. -/
def piece? (cs : List Char) : Option Nat :=
  if cs.isEmpty || 4 < cs.length then none else numeral? 16 cs

/-- An octet of an IPv4 address inside an IPv6 address. -/
def innerOctet? (cs : List Char) : Option Nat :=
  if cs.isEmpty || (cs.head? == some '0' && 1 < cs.length) then none
  else (numeral? 10 cs).filter (· < 256)

/-- The pieces between colons; the last one may be a dotted IPv4 address. -/
def pieces? : List (List Char) → Option (List Nat)
  | [] => some []
  | [last] =>
    if last.contains '.' then do
      match ← (splitAt '.' last).mapM innerOctet? with
      | [a, b, c, d] => some [a * 256 + b, c * 256 + d]
      | _ => none
    else (piece? last).map ([·])
  | part :: parts => do
    let p ← piece? part
    let ps ← pieces? parts
    return p :: ps

/-- The pieces of a text without `::`; an empty text has none. -/
def plainPieces? (cs : List Char) : Option (List Nat) :=
  if cs.isEmpty then some [] else pieces? (splitAt ':' cs)

/-- The texts around the first `::`. -/
def splitDouble : List Char → List Char × Option (List Char)
  | [] => ([], none)
  | ':' :: ':' :: rest => ([], some rest)
  | c :: rest => let r := splitDouble rest; (c :: r.1, r.2)

/-- The IPv6 address of a text. -/
def ipv6? (cs : List Char) : Option (List Nat) :=
  match splitDouble cs with
  | (whole, none) => (plainPieces? whole).filter (·.length == 8)
  | (left, some right) => do
    let before ← plainPieces? left
    let after ← plainPieces? right
    if before.length + after.length ≤ 7 && !(left.contains '.') then
      some (before ++ List.replicate (8 - before.length - after.length) 0 ++ after)
    else none

/-- Characters that no host contains. -/
def isForbidden (c : Char) : Bool :=
  ['\x00', '\t', '\n', '\r', ' ', '#', '/', ':', '<', '>', '?', '@', '[', '\\', ']', '^', '|'].contains c

/-- Characters that no domain contains. -/
def isForbiddenInDomain (c : Char) : Bool :=
  isForbidden c || c.toNat < 0x20 || c == '%' || c.toNat == 0x7F

/-- A host in brackets, after the opening one. -/
def bracketed (cs : List Char) : Except Fault Host :=
  if cs.getLast? = some ']' then
    match ipv6? cs.dropLast with
    | some pieces => .ok (.ipv6 pieces)
    | none => .error .malformedIpv6
  else .error .malformedIpv6

/-- The threshold of a digit in the delta encoding of labels. -/
def threshold (position bias : Nat) : Nat := min 26 (max 1 (position - bias))

/-- A digit of the delta encoding. -/
def deltaDigit (d : Nat) : Char := if d < 26 then Char.ofNat (97 + d) else Char.ofNat (22 + d)

/-- Divides a delta until it is small, counting in steps of thirty-six. -/
def settleBias : Nat → Nat → Nat → Nat
  | 0, _, k => k
  | fuel + 1, delta, k =>
    if 455 < delta then settleBias fuel (delta / 35) (k + 36) else k + 36 * delta / (delta + 38)

/-- The bias after a delta. -/
def adaptBias (delta count : Nat) (first : Bool) : Nat :=
  let delta := if first then delta / 700 else delta / 2
  settleBias 64 (delta + delta / count) 0

/-- The digits of a delta. -/
def deltaDigits (bias : Nat) : Nat → Nat → Nat → List Char
  | 0, _, _ => []
  | fuel + 1, position, delta =>
    let t := threshold position bias
    if delta < t then [deltaDigit delta]
    else
      deltaDigit (t + (delta - t) % (36 - t))
        :: deltaDigits bias fuel (position + 36) ((delta - t) / (36 - t))

/-- The state of the delta encoding of a label. -/
structure Deltas where
  delta : Nat
  bias : Nat
  handled : Nat
  first : Bool
  out : List Char

/-- Encodes the occurrences of one code point. -/
def encodePoint (point : Nat) (label : List Nat) (s : Deltas) : Deltas :=
  label.foldl (fun s c =>
    if c < point then { s with delta := s.delta + 1 }
    else if c = point then
      { delta := 0
        bias := adaptBias s.delta (s.handled + 1) s.first
        handled := s.handled + 1
        first := false
        out := s.out ++ deltaDigits s.bias 64 36 s.delta }
    else s) s

/-- Encodes the code points of a label in increasing order. -/
def encodePoints (label : List Nat) : List Nat → Nat → Deltas → Deltas
  | [], _, s => s
  | point :: points, n, s =>
    let s := { s with delta := s.delta + (point - n) * (s.handled + 1) }
    let s := encodePoint point label s
    encodePoints label points (point + 1) { s with delta := s.delta + 1 }

/-- A label of a domain in ASCII. -/
def asciiLabel (label : List Char) : List Char :=
  if label.all fun c => c.toNat < 128 then label.map Char.toLower
  else
    let label := label.map Char.toLower
    let basic := label.filter fun c => c.toNat < 128
    let codes := label.map Char.toNat
    let points := ((codes.filter (128 ≤ ·)).mergeSort (· ≤ ·)).eraseDups
    let start := basic ++ (if basic.isEmpty then [] else ['-'])
    let s := encodePoints codes points 128 ⟨0, 72, basic.length, true, start⟩
    "xn--".toList ++ s.out

/-- Whether a code point lies between two others. -/
def isBetween (low high : Nat) (c : Char) : Bool := low ≤ c.toNat && c.toNat ≤ high

/-- Whether a character adds nothing to a domain: joiners, marks of width zero and
selectors of variants. -/
def isVoid (c : Char) : Bool :=
  ['\u00ad', '\u034f', '\u200b', '\u2060', '\u2064', '\ufeff'].contains c
    || isBetween 0xFE00 0xFE0F c || isBetween 0x180B 0x180D c

/-- Whether a character is a full stop of another script. -/
def isStop (c : Char) : Bool := ['\u3002', '\uff0e', '\uff61'].contains c

/-- Whether a character is a space of another width. -/
def isWideSpace (c : Char) : Bool :=
  ['\u00a0', '\u202f', '\u205f', '\u3000'].contains c || isBetween 0x2000 0x200A c

/-- Whether a character never stands in a domain: controls, separators, private
use, and what replaces octets that are no text. -/
def isBarred (c : Char) : Bool :=
  isBetween 0x80 0x9F c || isBetween 0x2028 0x202E c || isBetween 0xE000 0xF8FF c
    || isBetween 0xFFF0 0xFFFF c

/-- A capital letter outside ASCII in lower case, any other character as it is. -/
def lowerWide (c : Char) : Char :=
  if isBetween 0xC0 0xDE c && c.toNat != 0xD7 || isBetween 0x391 0x3A9 c
      || isBetween 0x410 0x42F c then
    Char.ofNat (c.toNat + 0x20)
  else if isBetween 0x400 0x40F c then Char.ofNat (c.toNat + 0x50)
  else c

/-- What a character of a domain stands for, if it may stand there. -/
def folded? (c : Char) : Option (List Char) :=
  if isVoid c then some []
  else if isStop c then some ['.']
  else if isBetween 0xFF01 0xFF5E c then some [Char.ofNat (c.toNat - 0xFEE0)]
  else if isWideSpace c then some [' ']
  else if isBarred c then none
  else some [lowerWide c]

/-- A domain in ASCII: percent-encoding undone, every label in ASCII. It has none
with a character that never stands in a domain. -/
def asciiDomain? (cs : List Char) : Option (List Char) := do
  let characters ← (decode cs).decodeLossy.mapM folded?
  return List.intercalate ['.'] ((splitAt '.' characters.flatten).map asciiLabel)

/-- The host of a special URL. -/
def parse : List Char → Except Fault Host
  | '[' :: rest => bracketed rest
  | cs =>
    match asciiDomain? cs with
    | none => .error .malformedDomain
    | some name =>
      if name.isEmpty then .error .emptyHost
      else if name.any isForbiddenInDomain then .error .malformedDomain
      else if endsInNumber name then
        match ipv4? name with
        | some address => .ok (.ipv4 address)
        | none => .error .malformedIpv4
      else .ok (.domain name)

/-- The host of a URL that is not special. -/
def parsePlain : List Char → Except Fault Host
  | '[' :: rest => bracketed rest
  | cs =>
    if cs.any isForbidden then .error .characterInHost
    else .ok (.domain (encodeChars controls cs))

/-- The text of an IPv4 address. -/
def renderIpv4 (address : Nat) : List Char :=
  List.intercalate ['.'] ([3, 2, 1, 0].map fun i => Nat.toDigits 10 (address / Nat.pow 256 i % 256))

/-- The number of zeros in front of a list. -/
def zeroRun (pieces : List Nat) : Nat := (pieces.takeWhile (· == 0)).length

/-- The start and the length of the first longest run of zeros. -/
def longestZeros (pieces : List Nat) : Nat × Nat :=
  (List.range 8).foldl (fun best i =>
    let run := zeroRun (pieces.drop i)
    if best.2 < run then (i, run) else best) (0, 0)

/-- The text of an IPv6 address: its longest run of zero pieces is left out. -/
def renderIpv6 (pieces : List Nat) : List Char :=
  let hexes (ps : List Nat) := List.intercalate [':'] (ps.map (Nat.toDigits 16))
  let run := longestZeros pieces
  if run.2 < 2 then '[' :: hexes pieces ++ [']']
  else '[' :: hexes (pieces.take run.1) ++ [':', ':'] ++ hexes (pieces.drop (run.1 + run.2)) ++ [']']

/-- The text of a host. -/
def render : Host → List Char
  | domain name => name
  | ipv4 address => renderIpv4 address
  | ipv6 pieces => renderIpv6 pieces

end Host

end DiagnosticRelay.Url
