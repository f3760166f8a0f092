import DiagnosticRelay.Json.Number
import Mathlib.Algebra.Ring.Int.Defs
import Mathlib.Data.List.Basic
import Mathlib.Order.Basic

/-!
# Integers in texts

A number of a text is an integer when it is written with digits alone, after a minus sign
if it is negative, and lies between `-2 ^ 63` and `2 ^ 64`. Zero after a minus sign, and
every number with a point or an exponent, is a double.

## Main definitions

* `Number.IsWhole`: the digits of a whole number.
* `Number.IntegerLiteral`: integers as they are written.

## Main results

* `Number.read_eq_integer_iff`: the integers that are read.
-/

namespace DiagnosticRelay.Json.Number

variable {negative : Bool} {significand count offset stop : Nat} {start exponent n : Int}
  {digits rest rest' : List Char} {r : Read Number}

/-! ## How integers are written -/

/-- The number that digits make after those of another number. -/
def magnitudeFrom (before : Nat) (digits : List Char) : Nat :=
  digits.foldl (fun n c => n * 10 + digit c) before

/-- The digits of a whole number. Zero is the only one that begins with zero. -/
structure IsWhole (digits : List Char) : Prop where
  ne_nil : digits ≠ []
  isDigit : ∀ c ∈ digits, c.isDigit = true
  zero : digits.head? = some '0' → digits = ['0']

/-- How an integer is written. There is no negative zero. -/
inductive IntegerLiteral : List Char → Int → Prop where
  | natural {digits : List Char} : IsWhole digits → magnitudeFrom 0 digits < UInt64.size →
    IntegerLiteral digits (magnitudeFrom 0 digits)
  | negative {digits : List Char} : IsWhole digits → 0 < magnitudeFrom 0 digits →
    magnitudeFrom 0 digits ≤ UInt64.size / 2 →
    IntegerLiteral ('-' :: digits) (-(magnitudeFrom 0 digits : Nat))

/-- A number does not go on. -/
def IsOver (rest : List Char) : Prop :=
  ∀ c ∈ rest.head?, c.isDigit = false ∧ c ≠ '.' ∧ c ≠ 'e' ∧ c ≠ 'E'

theorem isOver_iff : IsOver rest ↔
    digitNext rest = false ∧ ∀ c ∈ rest.head?, c ≠ '.' ∧ c ≠ 'e' ∧ c ≠ 'E' := by
  cases rest with
  | nil => simp [IsOver, digitNext]
  | cons c rest => simp [IsOver, digitNext]

theorem le_magnitudeFrom (before : Nat) (digits : List Char) :
    before ≤ magnitudeFrom before digits := by
  induction digits generalizing before with
  | nil => exact Nat.le_refl _
  | cons c digits ih =>
    have hstep : before ≤ before * 10 + digit c := by omega
    exact Nat.le_trans hstep (ih _)

/-- The first digit makes a number of its own. -/
theorem magnitudeFrom_zero_cons (c : Char) (digits : List Char) :
    magnitudeFrom 0 (c :: digits) = magnitudeFrom (digit c) digits := by
  rw [magnitudeFrom, List.foldl_cons, Nat.zero_mul, Nat.zero_add]
  rfl

theorem digit_lt {c : Char} (h : c.isDigit = true) : digit c < UInt64.size := by
  simp only [Char.isDigit, Bool.and_eq_true, decide_eq_true_eq] at h
  have hle : c.toNat ≤ 57 := h.2
  have hzero : '0'.toNat = 48 := rfl
  have hsize : UInt64.size = 18446744073709551616 := rfl
  rw [digit, hzero, hsize]
  omega

/-! ## Runs of digits -/

/-- Digits that make a number of 64 bits are taken to their end. -/
theorem extend_append (hdigits : ∀ c ∈ digits, c.isDigit = true)
    (hlt : magnitudeFrom significand digits < UInt64.size) (hrest : digitNext rest = false) :
    extend significand count offset (digits ++ rest) =
      ⟨(magnitudeFrom significand digits, count + digits.length), offset + digits.length,
        rest⟩ := by
  induction digits generalizing significand count offset with
  | nil =>
    cases rest with
    | nil => rfl
    | cons c rest =>
      have hc : ¬ (c.isDigit = true ∧ significand * 10 + digit c < UInt64.size) := fun h => by
        simp [digitNext, h.1] at hrest
      rw [List.nil_append, extend, if_neg hc]
      rfl
  | cons c digits ih =>
    have hc : c.isDigit = true := hdigits c List.mem_cons_self
    have hstep : significand * 10 + digit c < UInt64.size :=
      Nat.lt_of_le_of_lt (le_magnitudeFrom _ digits) hlt
    rw [List.cons_append, extend, if_pos ⟨hc, hstep⟩,
      ih (fun d hd => hdigits d (List.mem_cons_of_mem _ hd)) hlt, List.length_cons]
    simp only [Read.mk.injEq, Prod.mk.injEq]
    exact ⟨⟨rfl, by omega⟩, by omega, trivial⟩

/-- What is taken is a run of digits that make a number of 64 bits. -/
theorem exists_of_extend (hlt : significand < UInt64.size) (count offset : Nat) (cs : List Char) :
    ∃ digits, cs = digits ++ (extend significand count offset cs).rest ∧
      (∀ c ∈ digits, c.isDigit = true) ∧
      (extend significand count offset cs).value.1 = magnitudeFrom significand digits ∧
      (extend significand count offset cs).offset = offset + digits.length ∧
      magnitudeFrom significand digits < UInt64.size := by
  induction cs generalizing significand count offset with
  | nil => exact ⟨[], rfl, by simp, rfl, rfl, hlt⟩
  | cons c cs ih =>
    rw [extend]
    split_ifs with hc
    · obtain ⟨digits, hcs, hdigits, hvalue, hoffset, hsize⟩ :=
        ih hc.2 (count + 1) (offset + 1)
      refine ⟨c :: digits, by rw [List.cons_append, ← hcs], ?_, hvalue, ?_, hsize⟩
      · exact List.forall_mem_cons.mpr ⟨hc.1, hdigits⟩
      · rw [hoffset, List.length_cons]
        omega
    · exact ⟨[], rfl, by simp, rfl, rfl, hlt⟩

/-! ## Doubles -/

/-- A number that is read is a double. -/
def IsDouble (x : Except Fault (Read Number)) : Prop :=
  ∀ r, x = .ok r → ∃ value, r.value = .double value

theorem isDouble_error (fault : Fault) : IsDouble (.error fault) := nofun

theorem isDouble_assemble : IsDouble (assemble negative significand exponent offset rest) := by
  rw [assemble]
  split
  · exact isDouble_error _
  · rintro r h
    exact ⟨_, congrArg Read.value (Except.ok.inj h).symm⟩

theorem isDouble_readExponent :
    IsDouble (readExponent negative significand start offset rest) := by
  unfold readExponent
  dsimp only
  split
  · exact isDouble_error _
  · split
    · split
      · exact isDouble_assemble
      · split
        · exact isDouble_error _
        · rintro r h
          exact ⟨_, congrArg Read.value (Except.ok.inj h).symm⟩
    · exact isDouble_error _

theorem isDouble_finishDouble :
    IsDouble (finishDouble negative significand exponent offset rest) := by
  unfold finishDouble
  split
  · exact isDouble_readExponent
  · exact isDouble_readExponent
  · exact isDouble_assemble

theorem isDouble_readFraction :
    IsDouble (readFraction negative significand start offset rest) := by
  rw [readFraction]
  split_ifs
  · exact isDouble_finishDouble
  · split <;> exact isDouble_error _
  · exact isDouble_finishDouble

theorem isDouble_afterLongWhole :
    IsDouble (afterLongWhole negative significand offset rest) := by
  unfold afterLongWhole
  dsimp only
  split
  · exact isDouble_readFraction
  · exact isDouble_finishDouble

theorem IsDouble.ne_integer {x : Except Fault (Read Number)} (h : IsDouble x) :
    x ≠ .ok ⟨.integer n, stop, rest⟩ := by
  intro hread
  obtain ⟨value, hvalue⟩ := h _ hread
  cases hvalue

/-! ## Integers -/

/-- After the digits of an integer the number is over. -/
theorem afterWhole_eq_integer_iff :
    afterWhole negative significand offset rest = .ok ⟨.integer n, stop, rest'⟩ ↔
      (∀ c ∈ rest.head?, c ≠ '.' ∧ c ≠ 'e' ∧ c ≠ 'E') ∧
        ofMagnitude negative significand = .integer n ∧ stop = offset ∧ rest' = rest := by
  unfold afterWhole
  split
  · exact iff_of_false isDouble_readFraction.ne_integer fun h => (h.1 _ rfl).1 rfl
  · exact iff_of_false isDouble_readExponent.ne_integer fun h => (h.1 _ rfl).2.1 rfl
  · exact iff_of_false isDouble_readExponent.ne_integer fun h => (h.1 _ rfl).2.2 rfl
  next hpoint hsmall hlarge =>
    have hover : ∀ c ∈ rest.head?, c ≠ '.' ∧ c ≠ 'e' ∧ c ≠ 'E' := by
      intro c hc
      obtain ⟨after, rfl⟩ := List.head?_eq_some_iff.mp hc
      refine ⟨?_, ?_, ?_⟩ <;> rintro rfl
      · exact hpoint after rfl
      · exact hsmall after rfl
      · exact hlarge after rfl
    simp only [Except.ok.injEq, Read.mk.injEq]
    exact ⟨fun ⟨h, hstop, hrest⟩ => ⟨hover, h, hstop.symm, hrest.symm⟩,
      fun ⟨_, h, hstop, hrest⟩ => ⟨h, hstop.symm, hrest.symm⟩⟩

theorem isWhole_zero : IsWhole ['0'] := ⟨by simp, by simp, fun _ => rfl⟩

/-- Of digits that begin with zero, an integer has only that. -/
theorem readMagnitude_zero_eq_integer_iff {cs : List Char} :
    readMagnitude negative offset ('0' :: cs) = .ok ⟨.integer n, stop, rest⟩ ↔
      cs = rest ∧ IsOver rest ∧ stop = offset + 1 ∧ ofMagnitude negative 0 = .integer n := by
  rw [readMagnitude]
  split_ifs with hdigit
  · refine iff_of_false (by simp) ?_
    rintro ⟨rfl, hover, -⟩
    rw [(isOver_iff.mp hover).1] at hdigit
    cases hdigit
  · rw [afterWhole_eq_integer_iff]
    constructor
    · rintro ⟨hover, hvalue, rfl, rfl⟩
      exact ⟨rfl, isOver_iff.mpr ⟨by simpa using hdigit, hover⟩, rfl, hvalue⟩
    · rintro ⟨rfl, hover, rfl, hvalue⟩
      exact ⟨(isOver_iff.mp hover).2, hvalue, rfl, rfl⟩

/-- The digits after the first one are all taken, if they make a number of 64 bits. -/
theorem readMagnitude_digit_eq_integer_iff {c : Char} {cs : List Char} (hc : c.isDigit = true)
    (hzero : c ≠ '0') :
    readMagnitude negative offset (c :: cs) = .ok ⟨.integer n, stop, rest⟩ ↔
      ∃ digits, cs = digits ++ rest ∧ (∀ d ∈ digits, d.isDigit = true) ∧ IsOver rest ∧
        stop = offset + 1 + digits.length ∧ magnitudeFrom (digit c) digits < UInt64.size ∧
        ofMagnitude negative (magnitudeFrom (digit c) digits) = .integer n := by
  rw [readMagnitude.eq_3 _ _ _ _ (by simpa using hzero), if_pos hc]
  dsimp only
  constructor
  · intro h
    obtain ⟨digits, hcs, hdigits, hvalue, hoffset, hsize⟩ :=
      exists_of_extend (digit_lt hc) 1 (offset + 1) cs
    split_ifs at h with hdigit
    · exact absurd h isDouble_afterLongWhole.ne_integer
    · obtain ⟨hover, hinteger, rfl, rfl⟩ := afterWhole_eq_integer_iff.mp h
      exact ⟨digits, hcs, hdigits, isOver_iff.mpr ⟨by simpa using hdigit, hover⟩, hoffset, hsize,
        hvalue ▸ hinteger⟩
  · rintro ⟨digits, rfl, hdigits, hover, rfl, hsize, hinteger⟩
    obtain ⟨hdigit, hmarks⟩ := isOver_iff.mp hover
    rw [extend_append hdigits hsize hdigit, if_neg (by simp [hdigit])]
    exact afterWhole_eq_integer_iff.mpr ⟨hmarks, hinteger, rfl, rfl⟩

/-- After its sign an integer is written with the digits of a whole number. -/
theorem readMagnitude_eq_integer_iff {cs : List Char} :
    readMagnitude negative offset cs = .ok ⟨.integer n, stop, rest⟩ ↔
      ∃ digits, cs = digits ++ rest ∧ IsWhole digits ∧ IsOver rest ∧
        stop = offset + digits.length ∧ magnitudeFrom 0 digits < UInt64.size ∧
        ofMagnitude negative (magnitudeFrom 0 digits) = .integer n := by
  cases cs with
  | nil =>
    refine iff_of_false (by simp [readMagnitude]) ?_
    rintro ⟨digits, hcs, hwhole, -⟩
    exact hwhole.ne_nil (List.append_eq_nil_iff.mp hcs.symm).1
  | cons c cs =>
    by_cases hzero : c = '0'
    · subst hzero
      rw [readMagnitude_zero_eq_integer_iff]
      constructor
      · rintro ⟨rfl, hover, rfl, hinteger⟩
        exact ⟨['0'], rfl, isWhole_zero, hover, rfl, by decide, hinteger⟩
      · rintro ⟨digits, hcs, hwhole, hover, rfl, -, hinteger⟩
        obtain ⟨d, ds, rfl⟩ := List.exists_cons_of_ne_nil hwhole.ne_nil
        obtain ⟨rfl, rfl⟩ := List.cons.inj hcs
        obtain rfl : ds = [] := by simpa using hwhole.zero rfl
        exact ⟨rfl, hover, rfl, hinteger⟩
    · by_cases hc : c.isDigit = true
      · rw [readMagnitude_digit_eq_integer_iff hc hzero]
        constructor
        · rintro ⟨digits, rfl, hdigits, hover, rfl, hsize, hinteger⟩
          refine ⟨c :: digits, rfl, ⟨by simp, List.forall_mem_cons.mpr ⟨hc, hdigits⟩, ?_⟩,
            hover, ?_⟩
          · exact fun hhead => absurd (Option.some.inj hhead) hzero
          · rw [magnitudeFrom_zero_cons, List.length_cons]
            exact ⟨by omega, hsize, hinteger⟩
        · rintro ⟨digits, hcs, hwhole, hover, rfl, hsize, hinteger⟩
          obtain ⟨d, ds, rfl⟩ := List.exists_cons_of_ne_nil hwhole.ne_nil
          obtain ⟨rfl, rfl⟩ := List.cons.inj hcs
          rw [magnitudeFrom_zero_cons] at hsize hinteger
          refine ⟨ds, rfl, (List.forall_mem_cons.mp hwhole.isDigit).2, hover, ?_, hsize, hinteger⟩
          rw [List.length_cons]
          omega
      · rw [readMagnitude.eq_3 _ _ _ _ (by simpa using hzero), if_neg hc]
        refine iff_of_false (by simp) ?_
        rintro ⟨digits, hcs, hwhole, -⟩
        obtain ⟨d, ds, rfl⟩ := List.exists_cons_of_ne_nil hwhole.ne_nil
        obtain ⟨rfl, rfl⟩ := List.cons.inj hcs
        exact hc (hwhole.isDigit _ List.mem_cons_self)

theorem ofMagnitude_false_eq_integer_iff {m : Nat} :
    ofMagnitude false m = .integer n ↔ n = m := by
  simp [ofMagnitude, eq_comm]

theorem ofMagnitude_true_eq_integer_iff {m : Nat} :
    ofMagnitude true m = .integer n ↔ 0 < m ∧ m ≤ UInt64.size / 2 ∧ n = -(m : Int) := by
  rw [ofMagnitude, if_pos rfl]
  split_ifs with h
  · refine iff_of_false (by simp) ?_
    omega
  · rw [Number.integer.injEq]
    omega

theorem IsWhole.head_ne_minus (h : IsWhole digits) : digits.head? ≠ some '-' := by
  intro hhead
  have hminus := h.isDigit '-' (List.mem_of_mem_head? hhead)
  cases hminus

/-- The integers that are read are those that are written as integers. -/
theorem read_eq_integer_iff {cs : List Char} :
    read offset cs = .ok ⟨.integer n, stop, rest⟩ ↔
      ∃ literal, cs = literal ++ rest ∧ IntegerLiteral literal n ∧ IsOver rest ∧
        stop = offset + literal.length := by
  unfold read
  split
  next after =>
    rw [readMagnitude_eq_integer_iff]
    constructor
    · rintro ⟨digits, rfl, hwhole, hover, rfl, -, hinteger⟩
      obtain ⟨hpos, hle, rfl⟩ := ofMagnitude_true_eq_integer_iff.mp hinteger
      refine ⟨'-' :: digits, rfl, .negative hwhole hpos hle, hover, ?_⟩
      rw [List.length_cons]
      omega
    · rintro ⟨literal, hcs, hliteral, hover, rfl⟩
      cases hliteral with
      | natural hwhole hsize =>
        -- Digits do not begin with a minus sign.
        obtain ⟨d, ds, rfl⟩ := List.exists_cons_of_ne_nil hwhole.ne_nil
        obtain ⟨rfl, -⟩ := List.cons.inj hcs
        exact absurd rfl hwhole.head_ne_minus
      | @negative digits hwhole hpos hle =>
        obtain ⟨-, rfl⟩ := List.cons.inj hcs
        have hsize : magnitudeFrom 0 digits < UInt64.size :=
          Nat.lt_of_le_of_lt hle (by decide)
        refine ⟨digits, rfl, hwhole, hover, ?_, hsize,
          ofMagnitude_true_eq_integer_iff.mpr ⟨hpos, hle, rfl⟩⟩
        rw [List.length_cons]
        omega
  next hminus =>
    rw [readMagnitude_eq_integer_iff]
    constructor
    · rintro ⟨digits, rfl, hwhole, hover, rfl, hsize, hinteger⟩
      obtain rfl := ofMagnitude_false_eq_integer_iff.mp hinteger
      exact ⟨digits, rfl, .natural hwhole hsize, hover, rfl⟩
    · rintro ⟨literal, rfl, hliteral, hover, rfl⟩
      cases hliteral with
      | natural hwhole hsize =>
        exact ⟨literal, rfl, hwhole, hover, rfl, hsize, ofMagnitude_false_eq_integer_iff.mpr rfl⟩
      | negative => exact absurd rfl (hminus _)

/-- Integers that are read lie between those of 64 bits with a sign and without. -/
theorem IntegerLiteral.bounds {literal : List Char} (h : IntegerLiteral literal n) :
    -(2 ^ 63 : Int) ≤ n ∧ n < 2 ^ 64 := by
  have hsize : UInt64.size = 2 ^ 64 := rfl
  cases h with
  | natural _ hlt => omega
  | negative _ hpos hle => omega

end DiagnosticRelay.Json.Number
