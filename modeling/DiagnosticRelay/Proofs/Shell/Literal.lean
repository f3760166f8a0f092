import DiagnosticRelay.Run.Command
import DiagnosticRelay.Shell.Running

/-!
# Text that a shell takes as it stands

A shell reads a character that is inert, a run between single quotes or an escaped
quote, and goes on behind it as if nothing had happened: the reader is neither in quotes
nor in an expansion. What it has read expands to itself. Quotes keep a text from being a
pattern, a tilde or several fields; without quotes it is the characters that do.

## Main results

* `Source.parts_inert`, `Source.parts_singleQuoted`, `Source.parts_escapedQuote`: the steps
  of the reader.
* `State.expandWords_literal`: a text that is literal is one field and changes nothing.
-/

namespace DiagnosticRelay.Shell

/-! ## Inert characters -/

/-- A character with a meaning is not inert. -/
theorem ne_of_isInert {c d : Char} (hc : isInert c = true) (hd : isInert d = false) : c ≠ d := by
  rintro rfl
  exact Bool.false_ne_true (hd.symm.trans hc)

theorem endsWord_eq_false {c : Char} (hc : isInert c = true) : Source.endsWord c = false := by
  have hends : " \t\n;&|<>()".toList.all (fun d => !isInert d) = true := by decide
  rw [Bool.eq_false_iff]
  intro hword
  have hnot := List.all_eq_true.mp hends c (List.contains_iff_mem.mp hword)
  rw [hc] at hnot
  exact Bool.false_ne_true hnot

namespace Source

variable {s : Source} {rest : List Char}

/-! ## Places -/

theorem rest_drop (s : Source) (n : Nat) : (s.drop n).rest = s.rest.drop n := by
  unfold drop
  split <;> rfl

/-- Characters are passed one after the other. -/
theorem drop_add (s : Source) (m n : Nat) : s.drop (m + n) = (s.drop m).drop n := by
  have hlines : (s.rest.take (m + n)).count '\n' =
      (s.rest.take m).count '\n' + ((s.rest.drop m).take n).count '\n' := by
    rw [List.take_add, List.count_append]
  -- Lines that were taken out are added where the first line end is passed, and only there.
  cases hfirst : (s.rest.take m).count '\n' with
  | zero => simp [drop, hlines, hfirst]
  | succ lines =>
    cases hsecond : ((s.rest.drop m).take n).count '\n' with
    | zero => simp [drop, hlines, hfirst, hsecond]
    | succ more => simp [drop, hlines, hfirst, hsecond]; omega

theorem rest_drop_append {w : List Char} (hs : s.rest = w ++ rest) :
    (s.drop w.length).rest = rest := by
  rw [rest_drop, hs, List.drop_left]

/-! ## Texts that are read -/

/-- Texts of one kind that are read one after the other are one text. -/
theorem joinText_joinText (a b : List Char) (quoted : Bool) (ps : List Part) :
    joinText (.text a quoted) (joinText (.text b quoted) ps) =
      joinText (.text (a ++ b) quoted) ps := by
  cases ps with
  | nil => simp [joinText]
  | cons p ps =>
    cases p with
    | text c q => cases q <;> cases quoted <;> simp [joinText]
    | _ => simp [joinText]

/-- What a reader has read, with a text before it. -/
def withText (text : List Char) (quoted : Bool) :
    Except Fault (List Part × Source) → Except Fault (List Part × Source) :=
  Except.map fun r => (joinText (.text text quoted) r.1, r.2)

theorem withText_withText (a b : List Char) (quoted : Bool)
    (r : Except Fault (List Part × Source)) :
    withText a quoted (withText b quoted r) = withText (a ++ b) quoted r := by
  cases r with
  | error fault => rfl
  | ok r => simp only [withText, Except.map, joinText_joinText]

/-! ## Steps of the reader -/

/-- What does not end a word begins one. -/
theorem tokenName?_eq_word {c : Char} (hs : s.rest = c :: rest) (hc : endsWord c = false) :
    s.tokenName? = some "word" := by
  have hne {d : Char} (hd : endsWord d = true) : c ≠ d := by
    rintro rfl
    exact Bool.false_ne_true (hc.symm.trans hd)
  have hnewline : c ≠ '\n' := hne rfl
  have hless : c ≠ '<' := hne rfl
  have hgreater : c ≠ '>' := hne rfl
  rw [tokenName?, hs]
  simp [hnewline, hless, hgreater, hc]

/-- Nothing is read at the end of the text. -/
theorem parts_end (hs : s.rest = []) (fuel : Nat) : parts (fuel + 1) .plain s = .ok ([], s) := by
  rw [parts]
  simp only [hs]

/-- Nothing is read at the end of a word. -/
theorem parts_endsWord {c : Char} (hs : s.rest = c :: rest) (hc : endsWord c = true)
    (fuel : Nat) : parts (fuel + 1) .plain s = .ok ([], s) := by
  rw [parts]
  simp only [hs, Context.endsAt, hc, if_true]

/-- An inert character is read as it stands. -/
theorem parts_inert {c : Char} (hs : s.rest = c :: rest) (hc : isInert c = true) (fuel : Nat) :
    parts (fuel + 1) .plain s = withText [c] false (parts fuel .plain (s.drop 1)) := by
  -- Whatever the reader treats in a way of its own is not inert.
  have hbackslash : c ≠ '\\' := ne_of_isInert hc rfl
  have hquote : c ≠ '\'' := ne_of_isInert hc rfl
  have hdoubled : c ≠ '"' := ne_of_isInert hc rfl
  have hold : c ≠ '\x60' := ne_of_isInert hc rfl
  have hdollar : c ≠ '$' := ne_of_isInert hc rfl
  rw [parts]
  simp only [hs, Context.endsAt, endsWord_eq_false hc, hbackslash, hquote, hdoubled, hold, hdollar,
    Bool.false_eq_true, false_and, if_false]
  rfl

/-- What stands between single quotes is read as it stands. -/
theorem parts_singleQuoted {text : List Char} (hs : s.rest = '\'' :: (text ++ '\'' :: rest))
    (htext : '\'' ∉ text) (fuel : Nat) :
    parts (fuel + 1) .plain s =
      withText text true (parts fuel .plain (s.drop (text.length + 2))) := by
  -- The run goes up to the first quote, and there is one.
  have hrun : (text ++ '\'' :: rest).takeWhile (· != '\'') = text := by
    rw [List.takeWhile_append_of_pos, List.takeWhile_cons_of_neg, List.append_nil]
    · decide
    · intro c hc
      rw [bne_iff_ne]
      rintro rfl
      exact htext hc
  have hclosed : text.length ≠ (text ++ '\'' :: rest).length := by
    rw [List.length_append, List.length_cons]
    omega
  rw [parts]
  simp only [hs, hrun, hclosed, Context.isQuoted, if_false]
  rfl

/-- A quote behind a backslash is read as a quote. -/
theorem parts_escapedQuote (hs : s.rest = '\\' :: '\'' :: rest) (fuel : Nat) :
    parts (fuel + 1) .plain s = withText ['\''] true (parts fuel .plain (s.drop 2)) := by
  rw [parts]
  simp only [hs]
  rfl

/-- Nothing is redirected where no descriptor stands. -/
theorem redirections_eq_nil (hskip : s.skip = s) (hs : s.descriptor? = none) (fuel : Nat) :
    redirections (fuel + 1) s = .ok ([], s) := by
  rw [redirections]
  simp only [hskip, hs]

/-- There are no words at the end of the text. -/
theorem words_end (hs : s.rest = []) (fuel : Nat) :
    words (fuel + 2) false s = .ok (([], [], []), s) := by
  have hskip : s.skip = s := by
    rw [skip, hs, skipSpace, ← hs]
  have hnone : s.descriptor? = none := by
    rw [descriptor?, hs]
  rw [words]
  simp only [redirections_eq_nil hskip hnone, bind, Except.bind, hs]
  rfl

/-- A word that is read is the first one. -/
theorem words_cons {c : Char} {word : Word} {t : Source} {fuel : Nat} (hs : s.rest = c :: rest)
    (hc : endsWord c = false) (hskip : s.skip = s) (hnone : s.descriptor? = none)
    (hword : parts (fuel + 1) .plain s = .ok (word, t)) :
    words (fuel + 2) false s = (words (fuel + 1) false t).map fun r =>
      ((r.1.1, word :: r.1.2.1, r.1.2.2), r.2) := by
  rw [words]
  simp only [redirections_eq_nil hskip hnone, bind, Except.bind, hs, hc, Bool.false_eq_true,
    if_false, hword]
  cases words (fuel + 1) false t <;> rfl

end Source

/-! ## Expansion -/

/-- Quotes, or characters that mean themselves, make a text literal. A text that is empty
needs the quotes, for there would be no field for it. -/
def IsLiteral (text : List Char) (quoted : Bool) : Prop :=
  quoted = true ∨ text ≠ [] ∧ ∀ c ∈ text, isInert c = true

/-- The letters of a text. -/
def lettersFor (text : List Char) (quoted : Bool) : List Letter := text.map fun c => ⟨c, quoted⟩

theorem charsOf_lettersFor (text : List Char) (quoted : Bool) :
    charsOf (lettersFor text quoted) = text := by
  simp [charsOf, lettersFor, Function.comp_def]

/-- A pattern whose letters are quoted or inert stands for one text only. -/
theorem Pattern.isPlain_read (fuel : Nat) {letters : List Letter}
    (h : ∀ a ∈ letters, a.quoted = true ∨ isInert a.char = true) :
    (Pattern.read fuel letters).isPlain = true := by
  induction fuel generalizing letters with
  | zero => simp [Pattern.read, isPlain]
  | succ fuel ih =>
    cases letters with
    | nil => simp [Pattern.read, isPlain]
    | cons a rest =>
      have hrest : (Pattern.read fuel rest).isPlain = true := by
        apply ih
        intro b hb
        exact h b (List.mem_cons_of_mem a hb)
      have hread :
          Pattern.read (fuel + 1) (a :: rest) = .letter a.char :: Pattern.read fuel rest := by
        rcases h a List.mem_cons_self with hquoted | hinert
        · simp only [Pattern.read, hquoted, if_true]
        · have hany : a.char ≠ '?' := ne_of_isInert hinert rfl
          have hmany : a.char ≠ '*' := ne_of_isInert hinert rfl
          have hclass : a.char ≠ '[' := ne_of_isInert hinert rfl
          simp only [Pattern.read, hany, hmany, hclass, if_false, ite_self]
      rw [hread]
      exact hrest

variable {text : List Char} {quoted : Bool}

/-- A text goes on with the field that was begun. -/
theorem fields_keep (separators : List Char) (field : List Letter) :
    fields separators (some field) (text.map fun c => .keep ⟨c, quoted⟩) =
      [field.reverse ++ lettersFor text quoted] := by
  induction text generalizing field with
  | nil => simp [fields, lettersFor]
  | cons c text ih => simp [fields, lettersFor, ih]

namespace IsLiteral

/-- A literal text is one field, which is neither split nor dropped. -/
theorem fields_piecesOfText (h : IsLiteral text quoted) (separators : List Char) :
    fields separators none (piecesOfText quoted text) = [lettersFor text quoted] := by
  rcases h with rfl | ⟨hne, -⟩
  · simp [piecesOfText, fields, fields_keep]
  · obtain ⟨c, text, rfl⟩ := List.exists_cons_of_ne_nil hne
    cases quoted <;> simp [piecesOfText, fields, fields_keep, lettersFor]

/-- No names of files are looked up. -/
theorem pathnames_lettersFor (h : IsLiteral text quoted) (s : State) :
    s.pathnames (lettersFor text quoted) = [text] := by
  have hplain : (Pattern.ofLetters (lettersFor text quoted)).isPlain = true := by
    apply Pattern.isPlain_read
    intro a ha
    obtain ⟨c, hc, rfl⟩ := List.mem_map.mp ha
    exact h.imp id fun hinert => hinert.2 c hc
  rw [State.pathnames, hplain, Bool.or_true, if_pos rfl, charsOf_lettersFor]

/-- There is no tilde to replace. -/
theorem fromHome_text (h : IsLiteral text quoted) (s : State) :
    s.fromHome [.text text quoted] = [.text text quoted] := by
  unfold State.fromHome
  split
  · next rest parts home heq _ =>
    obtain ⟨⟨rfl, rfl⟩, rfl⟩ : (text = '~' :: rest ∧ quoted = false) ∧ parts = [] := by
      simpa [eq_comm] using heq
    -- Without quotes the text is inert, and a tilde is not.
    have htilde := (h.resolve_left Bool.false_ne_true).2 '~' List.mem_cons_self
    exact absurd htilde (by decide)
  · rfl

/-- A literal text is one field, and expanding it does nothing else. -/
theorem expandWords_text (h : IsLiteral text quoted) (s : State) (fuel : Nat) :
    expandWords s (fuel + 4) [[.text text quoted]] = (s, [text]) := by
  have hword : expandWord s (fuel + 3) [.text text quoted] = (s, piecesOfText quoted text) := by
    simp only [expandWord, h.fromHome_text, expand, expandPart, List.append_nil]
  simp only [expandWords, hword, h.fields_piecesOfText, ite_self, List.flatMap_singleton,
    h.pathnames_lettersFor, List.append_nil]

end IsLiteral

end DiagnosticRelay.Shell
