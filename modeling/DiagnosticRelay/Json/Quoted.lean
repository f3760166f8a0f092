import DiagnosticRelay.Json.Number

/-!
# JSON strings

A string can be read, which decodes its escapes, or passed over, which only
finds its end. Passing over does not mind unpaired surrogates.

## Main definitions

* `Json.Quoted.read`: the text of a string and what follows it.
* `Json.Quoted.skip`: what follows a string.
-/

namespace DiagnosticRelay.Json.Quoted

/-- The length in octets of characters. -/
def octetCount (cs : List Char) : Nat := cs.foldr (fun c n => c.utf8Size + n) 0

/-- The value of a hexadecimal digit. -/
def hexDigit? (c : Char) : Option Nat :=
  if c.isDigit then some (c.toNat - '0'.toNat)
  else if 'a' ≤ c ∧ c ≤ 'f' then some (c.toNat - 'a'.toNat + 10)
  else if 'A' ≤ c ∧ c ≤ 'F' then some (c.toNat - 'A'.toNat + 10)
  else none

/-- The value of four hexadecimal digits. -/
def hexDigits? (a b c d : Char) : Option Nat :=
  match hexDigit? a, hexDigit? b, hexDigit? c, hexDigit? d with
  | some a, some b, some c, some d => some (((a * 16 + b) * 16 + c) * 16 + d)
  | _, _, _, _ => none

/-- The fault of four octets that are not hexadecimal digits. -/
def hexFault (offset : Nat) (rest : List Char) : Fault :=
  if octetCount rest < 4 then ⟨.endInString, offset + octetCount rest⟩
  else ⟨.unknownEscape, offset + 4⟩

/-- Reads four hexadecimal digits. -/
def readHex (offset : Nat) : List Char → Except Fault (Read Nat)
  | a :: b :: c :: d :: rest =>
    match hexDigits? a b c d with
    | some n => .ok ⟨n, offset + 4, rest⟩
    | none => .error (hexFault offset (a :: b :: c :: d :: rest))
  | rest => .error (hexFault offset rest)

/-- The character that a letter after a backslash stands for. -/
def plainEscape? : Char → Option Char
  | '"' => some '"'
  | '\\' => some '\\'
  | '/' => some '/'
  | 'b' => some '\x08'
  | 'f' => some '\x0c'
  | 'n' => some '\n'
  | 'r' => some '\r'
  | 't' => some '\t'
  | _ => none

/-- Whether a number is a leading surrogate. -/
def isLeading (n : Nat) : Bool := 0xD800 ≤ n && n ≤ 0xDBFF

/-- Whether a number is a trailing surrogate. -/
def isTrailing (n : Nat) : Bool := 0xDC00 ≤ n && n ≤ 0xDFFF

/-- The character of a surrogate pair. -/
def joinSurrogates (leading trailing : Nat) : Char :=
  Char.ofNat ((leading - 0xD800) * 0x400 + (trailing - 0xDC00) + 0x10000)

/-- Reads the trailing surrogate that has to follow a leading one. -/
def readTrailing (leading offset : Nat) : List Char → Except Fault (Read Char)
  | [] => .error ⟨.endInString, offset⟩
  | '\\' :: [] => .error ⟨.endInString, offset + 1⟩
  | '\\' :: 'u' :: rest => do
    let second ← readHex (offset + 2) rest
    if isTrailing second.value then
      .ok ⟨joinSurrogates leading second.value, second.offset, second.rest⟩
    else .error ⟨.loneSurrogate, second.offset⟩
  | '\\' :: _ => .error ⟨.escapeCutShort, offset + 2⟩
  | _ => .error ⟨.escapeCutShort, offset + 1⟩

/-- Reads an escape after its backslash. -/
def readEscape (offset : Nat) : List Char → Except Fault (Read Char)
  | [] => .error ⟨.endInString, offset⟩
  | 'u' :: rest => do
    let first ← readHex (offset + 1) rest
    if isTrailing first.value then .error ⟨.loneSurrogate, first.offset⟩
    else if isLeading first.value then readTrailing first.value first.offset first.rest
    else .ok ⟨Char.ofNat first.value, first.offset, first.rest⟩
  | c :: rest =>
    match plainEscape? c with
    | some e => .ok ⟨e, offset + 1, rest⟩
    | none => .error ⟨.unknownEscape, offset + 1⟩

/-- Passes over an escape after its backslash. -/
def skipEscape (offset : Nat) : List Char → Except Fault (Read Unit)
  | [] => .error ⟨.endInString, offset⟩
  | 'u' :: rest => do
    let first ← readHex (offset + 1) rest
    .ok ⟨(), first.offset, first.rest⟩
  | c :: rest =>
    match plainEscape? c with
    | some _ => .ok ⟨(), offset + 1, rest⟩
    | none => .error ⟨.unknownEscape, offset + 1⟩

theorem length_readHex_lt {offset : Nat} {cs : List Char} {r : Read Nat}
    (h : readHex offset cs = .ok r) : r.rest.length < cs.length := by
  unfold readHex at h
  split at h
  · split at h
    · cases h; simp; omega
    · cases h
  · cases h

theorem length_readTrailing_lt {leading offset : Nat} {cs : List Char} {r : Read Char}
    (h : readTrailing leading offset cs = .ok r) : r.rest.length < cs.length := by
  unfold readTrailing at h
  split at h
  · cases h
  · cases h
  · rename_i rest
    cases hx : readHex (offset + 2) rest with
    | error e => simp [hx, bind, Except.bind] at h
    | ok second =>
      simp only [hx, bind, Except.bind] at h
      split at h
      · have := length_readHex_lt hx
        rw [Except.ok.injEq] at h
        subst h
        simp
        omega
      · cases h
  · cases h
  · cases h

theorem length_readEscape_lt {offset : Nat} {cs : List Char} {r : Read Char}
    (h : readEscape offset cs = .ok r) : r.rest.length < cs.length := by
  unfold readEscape at h
  split at h
  · cases h
  · rename_i rest
    cases hx : readHex (offset + 1) rest with
    | error e => simp [hx, bind, Except.bind] at h
    | ok first =>
      have short := length_readHex_lt hx
      simp only [hx, bind, Except.bind] at h
      split at h
      · cases h
      · split at h
        · have := length_readTrailing_lt h
          simp
          omega
        · rw [Except.ok.injEq] at h
          subst h
          simp
          omega
  · split at h
    · cases h; simp
    · cases h

theorem length_skipEscape_lt {offset : Nat} {cs : List Char} {r : Read Unit}
    (h : skipEscape offset cs = .ok r) : r.rest.length < cs.length := by
  unfold skipEscape at h
  split at h
  · cases h
  · rename_i rest
    cases hx : readHex (offset + 1) rest with
    | error e => simp [hx, bind, Except.bind] at h
    | ok first =>
      have short := length_readHex_lt hx
      simp only [hx, bind, Except.bind] at h
      cases h
      simp
      omega
  · split at h
    · cases h; simp
    · cases h

/-- Reads a string after its opening quote; `done` holds the characters read so
far, the last one first. -/
def read (offset : Nat) (done : List Char) (cs : List Char) : Except Fault (Read String) :=
  match cs with
  | [] => .error ⟨.endInString, offset⟩
  | c :: rest =>
    if c = '"' then .ok ⟨String.ofList done.reverse, offset + 1, rest⟩
    else if c = '\\' then
      match _h : readEscape (offset + 1) rest with
      | .error fault => .error fault
      | .ok escape => read escape.offset (escape.value :: done) escape.rest
    else if c.toNat < 0x20 then .error ⟨.controlCharacter, offset + 1⟩
    else read (offset + c.utf8Size) (c :: done) rest
termination_by cs.length
decreasing_by
  · have := length_readEscape_lt _h
    simp
    omega
  · simp

/-- Passes over a string after its opening quote. -/
def skip (offset : Nat) (cs : List Char) : Except Fault (Read Unit) :=
  match cs with
  | [] => .error ⟨.endInString, offset⟩
  | c :: rest =>
    if c = '"' then .ok ⟨(), offset + 1, rest⟩
    else if c = '\\' then
      match _h : skipEscape (offset + 1) rest with
      | .error fault => .error fault
      | .ok escape => skip escape.offset escape.rest
    else if c.toNat < 0x20 then .error ⟨.controlCharacter, offset⟩
    else skip (offset + c.utf8Size) rest
termination_by cs.length
decreasing_by
  · have := length_skipEscape_lt _h
    simp
    omega
  · simp

end DiagnosticRelay.Json.Quoted
