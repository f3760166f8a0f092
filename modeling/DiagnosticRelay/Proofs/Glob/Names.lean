import DiagnosticRelay.Glob.Basic
import DiagnosticRelay.Proofs.Text.Utf8Order

/-!
# Globs of names

A glob that has directories in front and then some names matches the names, alone or below
anything. What a token leaves of a text is followed through the tokens in a row: each of
them leaves an end of what the one before has left.

## Main definitions

* `Glob.word`: the tokens of a name.
* `Glob.anywhere`: the glob of names in any directory.

## Main results

* `Glob.mem_afterTokens_iff`: tokens in a row leave what they leave of a single text.
* `Glob.mem_afterTokens_word_iff`: a name leaves what stands behind it.
* `Glob.matches_anywhere_iff`: what names in any directory match.
-/

namespace DiagnosticRelay.Glob

variable {text rest : Octets} {texts : List Octets} {t : Token} {ts : List Token}
  {branches : List (List Token)} {names : List String}

/-! ## Tokens in a row -/

/-- What tokens in a row leave of any of the texts they leave of a single one. -/
theorem mem_afterTokens_iff :
    rest ∈ afterTokens ts texts ↔ ∃ text ∈ texts, rest ∈ afterTokens ts [text] := by
  induction ts generalizing texts with
  | nil => simp [afterTokens]
  | cons t ts ih =>
    have hrow (texts : List Octets) : rest ∈ afterTokens (t :: ts) texts ↔
        ∃ text ∈ texts, ∃ left ∈ t.after text, rest ∈ afterTokens ts [left] := by
      rw [afterTokens, ih]
      simp only [List.mem_eraseDups, List.mem_flatMap]
      constructor
      · rintro ⟨left, ⟨text, htext, hleft⟩, hrest⟩
        exact ⟨text, htext, left, hleft, hrest⟩
      · rintro ⟨text, htext, left, hleft, hrest⟩
        exact ⟨left, ⟨text, htext, hleft⟩, hrest⟩
    rw [hrow]
    simp only [hrow [_], List.mem_singleton, exists_eq_left]

/-- A token and those behind it. -/
theorem mem_afterTokens_cons_iff :
    rest ∈ afterTokens (t :: ts) [text] ↔ ∃ left ∈ t.after text, rest ∈ afterTokens ts [left] := by
  rw [afterTokens, mem_afterTokens_iff]
  simp

/-- No tokens leave a text as it is. -/
theorem mem_afterTokens_nil_iff : rest ∈ afterTokens [] [text] ↔ text = rest := by
  rw [afterTokens, List.mem_singleton, eq_comm]

/-! ## Names -/

/-- The tokens of a name. -/
def word (name : String) : List Token := name.toList.map .literal

theorem strip?_eq_some_iff {expected : Octets} :
    strip? expected text = some rest ↔ text = expected ++ rest := by
  induction expected generalizing text with
  | nil => simp [strip?]
  | cons b expected ih =>
    cases text with
    | nil => simp [strip?]
    | cons c text =>
      rw [strip?]
      split_ifs with h
      · simp [ih, h]
      · simp [Ne.symm h]

/-- Tokens that are characters themselves leave what stands behind these. -/
theorem mem_afterTokens_literals_iff {cs : List Char} :
    rest ∈ afterTokens (cs.map .literal) [text] ↔
      text = cs.flatMap String.utf8EncodeChar ++ rest := by
  induction cs generalizing text with
  | nil => exact mem_afterTokens_nil_iff
  | cons c cs ih =>
    have hchar : Octets.ofString (String.singleton c) = String.utf8EncodeChar c := by
      simp [Octets.ofString_eq_flatMap]
    rw [List.map_cons, mem_afterTokens_cons_iff, Token.after, hchar]
    simp only [Option.mem_toList, strip?_eq_some_iff, ih, List.flatMap_cons,
      List.append_assoc]
    constructor
    · rintro ⟨left, rfl, rfl⟩
      rfl
    · rintro rfl
      exact ⟨_, rfl, rfl⟩

/-- A name leaves what stands behind it. -/
theorem mem_afterTokens_word_iff {name : String} :
    rest ∈ afterTokens (word name) [text] ↔ text = Octets.ofString name ++ rest := by
  rw [word, mem_afterTokens_literals_iff, Octets.ofString_eq_flatMap]

/-- Only the empty name stands for nothing at all. -/
theorem tokensVoid_word {name : String} (h : name ≠ "") : tokensVoid (word name) = false := by
  cases hchars : name.toList with
  | nil => exact absurd (String.toList_eq_nil_iff.mp hchars) h
  | cons c cs => simp [word, hchars, tokensVoid, Token.isVoid]

/-! ## Choices -/

theorem mem_afterBranches_iff : rest ∈ afterBranches branches text ↔
    ∃ branch ∈ branches, tokensVoid branch = false ∧ rest ∈ afterTokens branch [text] := by
  induction branches with
  | nil => simp [afterBranches]
  | cons branch branches ih =>
    rw [afterBranches, List.mem_append, ih, List.exists_mem_cons_iff]
    cases tokensVoid branch <;> simp

/-- A choice leaves what any of its branches leaves, if one of them stands for something. -/
theorem mem_after_choice_iff (h : branchesVoid branches = false) :
    rest ∈ (Token.choice branches).after text ↔
      ∃ branch ∈ branches, tokensVoid branch = false ∧ rest ∈ afterTokens branch [text] := by
  rw [Token.after, if_neg (by simp [h]), mem_afterBranches_iff]

theorem branchesVoid_eq_false {branch : List Token} (hmem : branch ∈ branches)
    (h : tokensVoid branch = false) : branchesVoid branches = false := by
  induction branches with
  | nil => cases hmem
  | cons first branches ih =>
    rw [branchesVoid]
    rcases List.mem_cons.mp hmem with rfl | hmem
    · rw [h, Bool.false_and]
    · rw [ih hmem, Bool.and_false]

/-- A choice of names leaves what stands behind any of them. -/
theorem mem_after_choice_words_iff (hsome : names ≠ []) (hnames : ∀ name ∈ names, name ≠ "") :
    rest ∈ (Token.choice (names.map word)).after text ↔
      ∃ name ∈ names, text = Octets.ofString name ++ rest := by
  obtain ⟨first, hfirst⟩ := List.exists_mem_of_ne_nil names hsome
  have hvoid := branchesVoid_eq_false (List.mem_map_of_mem hfirst)
    (tokensVoid_word (hnames first hfirst))
  rw [mem_after_choice_iff hvoid]
  simp only [List.mem_map, exists_exists_and_eq_and, mem_afterTokens_word_iff]
  constructor
  · rintro ⟨name, hname, -, htext⟩
    exact ⟨name, hname, htext⟩
  · rintro ⟨name, hname, htext⟩
    exact ⟨name, hname, tokensVoid_word (hnames name hname), htext⟩

/-! ## Directories in front -/

/-- The ends below a directory are what stands behind a `/`. -/
theorem mem_endsBelow_iff : rest ∈ endsBelow text ↔ ∃ upper, text = upper ++ slash :: rest := by
  induction text with
  | nil => simp [endsBelow]
  | cons b text ih =>
    rw [endsBelow]
    split_ifs with hb
    · rw [List.mem_cons, ih, hb]
      constructor
      · rintro (rfl | ⟨upper, rfl⟩)
        · exact ⟨[], rfl⟩
        · exact ⟨slash :: upper, rfl⟩
      · rintro ⟨upper, heq⟩
        cases upper with
        | nil => exact .inl (List.cons.inj heq).2.symm
        | cons c upper => exact .inr ⟨upper, (List.cons.inj heq).2⟩
    · rw [ih]
      constructor
      · rintro ⟨upper, rfl⟩
        exact ⟨b :: upper, rfl⟩
      · rintro ⟨upper, heq⟩
        cases upper with
        | nil => exact absurd (List.cons.inj heq).1 hb
        | cons c upper => exact ⟨upper, (List.cons.inj heq).2⟩

/-- Directories in front leave the text, or what stands behind a `/`. -/
theorem mem_after_directoriesBefore_iff : rest ∈ Token.directoriesBefore.after text ↔
    text = rest ∨ ∃ upper, text = upper ++ slash :: rest := by
  rw [Token.after, List.mem_cons, mem_endsBelow_iff, eq_comm]

/-- The glob of names in any directory. -/
def anywhere (names : List String) : Glob := ⟨[.directoriesBefore, .choice (names.map word)]⟩

/-- Names in any directory match any of the names, alone or below something. -/
theorem matches_anywhere_iff (hsome : names ≠ []) (hnames : ∀ name ∈ names, name ≠ "") :
    (anywhere names).matches text = true ↔ ∃ name ∈ names, text = Octets.ofString name ∨
      ∃ upper, text = upper ++ slash :: Octets.ofString name := by
  have hmatches : (anywhere names).matches text = true ↔
      [] ∈ afterTokens [.directoriesBefore, .choice (names.map word)] [text] := by
    rw [Glob.matches, anywhere]
    simp [List.any_eq_true]
  rw [hmatches]
  simp only [mem_afterTokens_cons_iff, mem_afterTokens_nil_iff, mem_after_directoriesBefore_iff,
    mem_after_choice_words_iff hsome hnames]
  constructor
  · rintro ⟨left, hleft, _, ⟨name, hname, rfl⟩, rfl⟩
    rw [List.append_nil] at hleft
    exact ⟨name, hname, hleft⟩
  · rintro ⟨name, hname, hleft⟩
    exact ⟨_, hleft, [], ⟨name, hname, (List.append_nil _).symm⟩, rfl⟩

end DiagnosticRelay.Glob
