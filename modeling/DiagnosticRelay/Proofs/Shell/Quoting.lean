import DiagnosticRelay.Proofs.Shell.Literal
import DiagnosticRelay.Proofs.Text.Lossless

/-!
# Quoted words

The path of a file is written as one word of a shell: as it stands if all its characters
are inert, and else between single quotes, where each quote is written as an escaped one
outside of them. A shell that reads the word gets the path back as one argument, whatever
the path looks like, and reads on behind it as it began.

## Main definitions

* `Shell.Spells`: how a text may be written.
* `Shell.IsArgument`: what a shell makes of a word.

## Main results

* `Shell.spells_quoteWord`: quoting writes a text in that way.
* `Shell.Spells.isArgument`: such a word is an argument.
* `Settings.commandLine_argument`: the word of the file in the command line.
-/

namespace DiagnosticRelay

namespace Shell

/-! ## Spellings -/

/-- Characters that write a text for a shell, piece by piece, either all without quotes or
all with them. -/
inductive Spells : List Char → List Char → Bool → Prop
  /-- An inert character stands for itself. -/
  | bare {c : Char} : isInert c = true → Spells [c] [c] false
  /-- So does what stands between single quotes. -/
  | singleQuoted {text : List Char} : '\'' ∉ text → Spells ('\'' :: (text ++ ['\''])) text true
  /-- A quote is escaped. -/
  | escapedQuote : Spells ['\\', '\''] ['\''] true
  | append {v w a b : List Char} {quoted : Bool} :
      Spells v a quoted → Spells w b quoted → Spells (v ++ w) (a ++ b) quoted

/-- A text that is inert is written as it stands. -/
theorem spells_bare {text : List Char} (hne : text ≠ []) (h : ∀ c ∈ text, isInert c = true) :
    Spells text text false := by
  induction text with
  | nil => exact absurd rfl hne
  | cons c text ih =>
    have hc := Spells.bare (h c List.mem_cons_self)
    cases text with
    | nil => exact hc
    | cons d text =>
      apply hc.append
      apply ih (List.cons_ne_nil d text)
      intro e he
      exact h e (List.mem_cons_of_mem c he)

/-- Between quotes, what was written since the last quote is the run that is open. -/
theorem spells_quoted (text : List Char) {run : List Char} (hrun : '\'' ∉ run) :
    Spells ('\'' :: (run ++ (text.flatMap quoteWordChar ++ ['\'']))) (run ++ text) true := by
  induction text generalizing run with
  | nil =>
    rw [List.append_nil]
    exact .singleQuoted hrun
  | cons c text ih =>
    by_cases hc : c = '\''
    · -- The run is closed, the quote is escaped, and another run is begun.
      subst hc
      have hbegun := Spells.escapedQuote.append (ih List.not_mem_nil)
      have hspelled := (Spells.singleQuoted hrun).append hbegun
      simpa [quoteWordChar] using hspelled
    · have hlonger : '\'' ∉ run ++ [c] := by simp [hrun, Ne.symm hc]
      have hspelled := ih hlonger
      simpa [quoteWordChar, hc] using hspelled

/-- Quoting writes a text so that it is spelled. -/
theorem spells_quoteWord (text : List Char) : ∃ quoted, Spells (quoteWord text) text quoted := by
  unfold quoteWord
  split
  · next hinert =>
    rw [Bool.and_eq_true, Bool.not_eq_true', List.isEmpty_eq_false_iff, List.all_eq_true] at hinert
    exact ⟨false, spells_bare hinert.1 hinert.2⟩
  · exact ⟨true, spells_quoted text List.not_mem_nil⟩

example : quoteWord "It's here".toList = "'It'\\''s here'".toList := by decide

namespace Spells

variable {w text rest : List Char} {quoted : Bool} {s : Source}

theorem isLiteral (h : Spells w text quoted) : IsLiteral text quoted := by
  induction h with
  | bare hc => exact .inr ⟨List.cons_ne_nil _ _, by simpa using hc⟩
  | singleQuoted _ => exact .inl rfl
  | escapedQuote => exact .inl rfl
  | append _ _ ihv ihw =>
    rcases ihv with rfl | ⟨hne, hv⟩
    · exact .inl rfl
    · rcases ihw with rfl | ⟨-, hw⟩
      · exact .inl rfl
      · refine .inr ⟨List.append_ne_nil_of_left_ne_nil hne _, ?_⟩
        intro c hc
        exact (List.mem_append.mp hc).elim (hv c) (hw c)

/-- A spelling is the text itself, or it begins with a quote or an escaped one. -/
theorem opens (h : Spells w text quoted) :
    (w = text ∧ text ≠ [] ∧ ∀ c ∈ text, isInert c = true) ∨
      ∃ v, w = '\'' :: v ∨ w = '\\' :: '\'' :: v := by
  -- A piece without quotes never stands beside one that has them.
  have hkinds : (quoted = false ∧ w = text) ∨
      (quoted = true ∧ ∃ v, w = '\'' :: v ∨ w = '\\' :: '\'' :: v) := by
    induction h with
    | bare _ => exact .inl ⟨rfl, rfl⟩
    | singleQuoted _ => exact .inr ⟨rfl, _, .inl rfl⟩
    | escapedQuote => exact .inr ⟨rfl, _, .inr rfl⟩
    | append _ _ ihv ihw =>
      rcases ihv with ⟨hbare, rfl⟩ | ⟨hquoted, v, rfl | rfl⟩
      · rcases ihw with ⟨-, rfl⟩ | ⟨hquoted, -⟩
        · exact .inl ⟨hbare, rfl⟩
        · exact absurd (hbare.symm.trans hquoted) Bool.false_ne_true
      · exact .inr ⟨hquoted, _, .inl rfl⟩
      · exact .inr ⟨hquoted, _, .inr rfl⟩
  rcases hkinds with ⟨rfl, rfl⟩ | ⟨-, hv⟩
  · exact .inl ⟨rfl, h.isLiteral.resolve_left Bool.false_ne_true⟩
  · exact .inr hv

/-! ## Reading -/

/-- No blank, joined line or comment comes before a spelling. -/
theorem skip_eq (h : Spells w text quoted) (hs : s.rest = w ++ rest) : s.skip = s := by
  have hspace : Source.skipSpace s.line s.rest = (s.rest, s.line) := by
    rw [hs]
    rcases h.opens with ⟨rfl, hne, hinert⟩ | ⟨v, rfl | rfl⟩
    · obtain ⟨c, v, rfl⟩ := List.exists_cons_of_ne_nil hne
      have hc := hinert c List.mem_cons_self
      have hbackslash : c ≠ '\\' := ne_of_isInert hc rfl
      have hcomment : c ≠ '#' := ne_of_isInert hc rfl
      have hspace : c ≠ ' ' := ne_of_isInert hc rfl
      have htab : c ≠ '\t' := ne_of_isInert hc rfl
      simp [Source.skipSpace, hbackslash, hspace, htab]
    · rfl
    · rfl
  rw [Source.skip, hspace]

/-- No operator comes before a spelling. -/
theorem exists_cons (h : Spells w text quoted) :
    ∃ c v, w = c :: v ∧ Source.endsWord c = false := by
  rcases h.opens with ⟨rfl, hne, hinert⟩ | ⟨v, rfl | rfl⟩
  · obtain ⟨c, v, rfl⟩ := List.exists_cons_of_ne_nil hne
    exact ⟨c, v, rfl, endsWord_eq_false (hinert c List.mem_cons_self)⟩
  · exact ⟨_, _, rfl, rfl⟩
  · exact ⟨_, _, rfl, rfl⟩

/-- A spelling is no descriptor before a redirection. -/
theorem descriptor?_eq_none (h : Spells w text quoted) (hs : s.rest = w) :
    s.descriptor? = none := by
  rw [Source.descriptor?, hs]
  rcases h.opens with ⟨rfl, -, hinert⟩ | ⟨v, rfl | rfl⟩
  · -- None of the characters is the sign of a redirection.
    have hsigns : ∀ c ∈ w, c ≠ '<' ∧ c ≠ '>' := by
      intro c hc
      exact ⟨ne_of_isInert (hinert c hc) rfl, ne_of_isInert (hinert c hc) rfl⟩
    cases w with
    | nil => rfl
    | cons c v =>
      cases v with
      | nil => simp [hsigns c (by simp)]
      | cons d v => simp [hsigns c (by simp), hsigns d (by simp)]
  · cases v <;> rfl
  · rfl

/-- A spelling is read as its text, and behind it the shell reads on as before. -/
theorem parts_eq (h : Spells w text quoted) : ∃ steps ≤ w.length,
    ∀ fuel (s : Source) rest, s.rest = w ++ rest → Source.parts (fuel + steps) .plain s =
      Source.withText text quoted (Source.parts fuel .plain (s.drop w.length)) := by
  induction h with
  | bare hc =>
    refine ⟨1, le_rfl, ?_⟩
    intro fuel s rest hs
    exact Source.parts_inert hs hc fuel
  | @singleQuoted text htext =>
    refine ⟨1, by simp, ?_⟩
    intro fuel s rest hs
    have hs' : s.rest = '\'' :: (text ++ '\'' :: rest) := by simpa using hs
    simpa using Source.parts_singleQuoted hs' htext fuel
  | escapedQuote =>
    refine ⟨1, by simp, ?_⟩
    intro fuel s rest hs
    exact Source.parts_escapedQuote hs fuel
  | @append v w a b quoted _ _ ihv ihw =>
    obtain ⟨m, hm, hv⟩ := ihv
    obtain ⟨n, hn, hw⟩ := ihw
    refine ⟨n + m, by rw [List.length_append]; omega, ?_⟩
    intro fuel s rest hs
    -- Behind the first piece the reader stands before the second, with the fuel that is left.
    rw [List.append_assoc] at hs
    rw [← Nat.add_assoc, hv _ s _ hs, hw _ _ _ (Source.rest_drop_append hs),
      Source.withText_withText, List.length_append, Source.drop_add]

/-- Where a word ends behind a spelling, the spelling is the whole word. -/
theorem parts_eq_ok (h : Spells w text quoted) (hs : s.rest = w ++ rest)
    (hrest : ∀ c ∈ rest.head?, Source.endsWord c = true) {fuel : Nat} (hfuel : w.length < fuel) :
    Source.parts fuel .plain s = .ok ([.text text quoted], s.drop w.length) := by
  obtain ⟨steps, hsteps, hparts⟩ := h.parts_eq
  obtain ⟨more, rfl⟩ : ∃ more, fuel = more + 1 + steps := ⟨fuel - 1 - steps, by omega⟩
  have hend : Source.parts (more + 1) .plain (s.drop w.length) = .ok ([], s.drop w.length) := by
    have hbehind := Source.rest_drop_append hs
    cases rest with
    | nil => exact Source.parts_end hbehind more
    | cons c rest => exact Source.parts_endsWord hbehind (hrest c rfl) more
  rw [hparts _ s rest hs, hend]
  rfl

/-- A spelling at the end of a command is its last word. -/
theorem words_eq_ok (h : Spells w text quoted) (hs : s.rest = w) {fuel : Nat}
    (hfuel : w.length < fuel) : Source.words (fuel + 1) false s =
      .ok (([], [[.text text quoted]], []), s.drop w.length) := by
  have happend : s.rest = w ++ [] := by rw [hs, List.append_nil]
  have hword := h.parts_eq_ok happend (by simp) hfuel
  obtain ⟨c, v, rfl, hc⟩ := h.exists_cons
  obtain ⟨more, rfl⟩ : ∃ more, fuel = more + 2 :=
    ⟨fuel - 2, by rw [List.length_cons] at hfuel; omega⟩
  rw [Source.words_cons hs hc (h.skip_eq happend) (h.descriptor?_eq_none hs) hword,
    Source.words_end (Source.rest_drop_append happend)]
  rfl

end Spells

/-! ## Arguments -/

/-- What a shell makes of a word that is an argument with a text, whether there are quotes
in it or not. -/
structure IsArgument (w text : List Char) (quoted : Bool) : Prop where
  /-- The word has nothing in it but inert characters, or single quotes with what is
  between them and escaped quotes. -/
  spells : Spells w text quoted
  /-- A word begins with it: no blanks, comment or operator are passed before. -/
  begins (s : Source) (rest : List Char) : s.rest = w ++ rest →
    s.skip = s ∧ s.tokenName? = some "word"
  /-- It is read as its text. Behind it, whatever stands there, the shell reads on in the
  same way, neither in quotes nor in an expansion. -/
  readsOn : ∃ steps ≤ w.length, ∀ fuel (s : Source) rest, s.rest = w ++ rest →
    Source.parts (fuel + steps) .plain s =
      Source.withText text quoted (Source.parts fuel .plain (s.drop w.length))
  /-- At the end of a command it is one word, and nothing is assigned or redirected. -/
  isWord (s : Source) (fuel : Nat) : s.rest = w → w.length < fuel →
    Source.words (fuel + 1) false s = .ok (([], [[.text text quoted]], []), s.drop w.length)
  /-- The word is one field, the text, for a shell in any state, which stays the same. -/
  isField (s : State) (fuel : Nat) :
    expandWords s (fuel + 4) [[.text text quoted]] = (s, [text])

/-- What is spelled is an argument. -/
theorem Spells.isArgument {w text : List Char} {quoted : Bool} (h : Spells w text quoted) :
    IsArgument w text quoted where
  spells := h
  begins s rest hs := by
    obtain ⟨c, v, rfl, hc⟩ := h.exists_cons
    exact ⟨h.skip_eq hs, Source.tokenName?_eq_word hs hc⟩
  readsOn := h.parts_eq
  isWord _ _ hs hfuel := h.words_eq_ok hs hfuel
  isField := h.isLiteral.expandWords_text

/-- A word is an argument with one text only. -/
theorem IsArgument.text_unique {w a b : List Char} {quoted quoted' : Bool}
    (ha : IsArgument w a quoted) (hb : IsArgument w b quoted') : a = b := by
  have hword := ha.isWord ⟨w, 1, 0⟩ (w.length + 1) rfl w.length.lt_succ_self
  rw [hb.isWord ⟨w, 1, 0⟩ (w.length + 1) rfl w.length.lt_succ_self] at hword
  simp only [Except.ok.injEq, Prod.mk.injEq, List.cons.injEq, Part.text.injEq] at hword
  exact hword.1.2.1.1.1.1.symm

/-- Different texts are quoted differently. -/
theorem quoteWord_injective : Function.Injective quoteWord := by
  intro a b heq
  obtain ⟨quoted, ha⟩ := spells_quoteWord a
  obtain ⟨quoted', hb⟩ := spells_quoteWord b
  rw [← heq] at hb
  exact ha.isArgument.text_unique hb.isArgument

end Shell

/-! ## Command lines -/

namespace Settings

variable (settings : Settings) (root target : Path)

theorem commandLine_none : settings.commandLine root none = " ".intercalate settings.baseWords := by
  rw [commandLine, Option.map_none, Option.toList_none, List.append_nil]

/-- The command line of the whole project is empty only if it has no words. -/
theorem commandLine_none_eq_empty_iff :
    settings.commandLine root none = "" ↔ settings.baseWords = [] := by
  rw [commandLine_none]
  constructor
  · intro hempty
    cases hwords : settings.baseWords with
    | nil => rfl
    | cons word words =>
      -- Words that are blank were left out, so the first one is in the line.
      have hword : word ≠ "" := by
        have hmem : word ∈ settings.baseWords := hwords ▸ List.mem_cons_self
        simpa using (List.mem_filter.mp hmem).2
      rw [hwords] at hempty
      cases words with
      | nil => exact absurd (by simpa using hempty) hword
      | cons next words => simp [String.intercalate_cons_cons, hword] at hempty
  · intro hnone
    rw [hnone, String.intercalate_nil]

/-- The word of a file stands behind the command line of the whole project. -/
theorem commandLine_some : settings.commandLine root (some target) =
    settings.commandLine root none ++
      (if settings.commandLine root none = "" then "" else " ") ++ operandWord root target := by
  by_cases hbase : settings.baseWords = []
  · rw [if_pos ((settings.commandLine_none_eq_empty_iff root).mpr hbase), commandLine_none,
      commandLine, hbase]
    simp
  · rw [if_neg (mt (settings.commandLine_none_eq_empty_iff root).mp hbase), commandLine_none,
      commandLine, Option.map_some, Option.toList_some,
      String.intercalate_append_of_ne_nil hbase (List.cons_ne_nil _ _),
      String.intercalate_singleton]

/-- A path that is text is quoted as that text. -/
theorem operandWord_of_octets {text : String}
    (htext : (target.relativeTo root).octets = Octets.ofString text) :
    operandWord root target = String.ofList (Shell.quoteWord text.toList) := by
  rw [operandWord, operand, Path.display, htext, Octets.toStringLossy_ofString]

/-- The command line for a file is that for the whole project, followed by a word from which
a shell gets the path of the file as seen from the root, as it stands, as one argument. So
files with different paths have different command lines. -/
theorem commandLine_argument {text : String}
    (htext : (target.relativeTo root).octets = Octets.ofString text) :
    (∃ w quoted, settings.commandLine root (some target) =
      settings.commandLine root none ++
        (if settings.commandLine root none = "" then "" else " ") ++ String.ofList w ∧
      Shell.IsArgument w text.toList quoted) ∧
    ∀ (otherRoot other : Path) (otherText : String),
      (other.relativeTo otherRoot).octets = Octets.ofString otherText → otherText ≠ text →
        settings.commandLine otherRoot (some other) ≠ settings.commandLine root (some target) := by
  constructor
  · obtain ⟨quoted, hspelled⟩ := Shell.spells_quoteWord text.toList
    refine ⟨Shell.quoteWord text.toList, quoted, ?_, hspelled.isArgument⟩
    rw [commandLine_some, operandWord_of_octets root target htext]
  · intro otherRoot other otherText hother hne heq
    rw [commandLine_some, commandLine_some, operandWord_of_octets root target htext,
      operandWord_of_octets otherRoot other hother, commandLine_none, commandLine_none,
      String.append_right_inj] at heq
    exact hne (String.toList_injective (Shell.quoteWord_injective (String.ofList_injective heq)))

/-- A name with blanks, a quote, a variable, a pattern and a line end is one argument. -/
theorem commandLine_argument_awkwardName :
    (∃ w quoted, commandLine {} (.ofString "/p") (some (.ofString "/p/It's $HOME/*\n.php")) =
      "php vendor/bin/phpstan analyse --error-format=json --no-progress" ++ " " ++
        String.ofList w ∧
      Shell.IsArgument w "It's $HOME/*\n.php".toList quoted) ∧
    commandLine {} (.ofString "/p") (some (.ofString "/p/It")) ≠
      commandLine {} (.ofString "/p") (some (.ofString "/p/It's $HOME/*\n.php")) := by
  have hbase : commandLine {} (.ofString "/p") none =
      "php vendor/bin/phpstan analyse --error-format=json --no-progress" := by decide +kernel
  have htext : ((Path.ofString "/p/It's $HOME/*\n.php").relativeTo (.ofString "/p")).octets =
      Octets.ofString "It's $HOME/*\n.php" := by decide +kernel
  obtain ⟨hword, hothers⟩ := commandLine_argument {} _ _ htext
  rw [hbase, if_neg (by decide)] at hword
  exact ⟨hword, hothers (.ofString "/p") (.ofString "/p/It") "It" (by decide +kernel) (by decide)⟩

end Settings

end DiagnosticRelay
