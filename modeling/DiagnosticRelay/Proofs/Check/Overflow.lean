import DiagnosticRelay.Proofs.Check.Printout

/-!
# Lines that overflow

A reported line may have up to 64 bits, and the addition that counts it from one has 32. So
the first listed line that does not fit ends a check: what comes before it is printed with
sound numbers, and nothing after that is printed, neither the other violations nor the
remarks. The code is then one that no other check has.

## Main definitions

* `Check.NumbersLine`: what a check makes of the line of a violation.
* `Check.StopsAfter`: a printout ends after some violations.

## Main results

* `Check.run_numbers_lines`: the lines that a check prints.
* `Check.bothEnd_overflows`: a check that ends before its second violation.
-/

namespace DiagnosticRelay.Check

variable {report : Report} {listed : List (Path × List Violation)}
  {before after : List (Path × Violation)} {x : Path × Violation}
  {here : Path} {r : CheckRequest} {settings : Settings} {execution : Execution}

/-- What a check makes of the line of a violation. A short line has an entry with a sound
number. For any other line the addition overflows, and there is no entry. -/
structure NumbersLine (v : Violation) : Prop where
  /-- The addition on the column fits 32 bits. -/
  column : (Diagnostic.ofViolation v).startColumn.toNat + 1 < UInt32.size
  /-- The addition on the line fits 32 bits for the short lines only. -/
  line_iff : (Diagnostic.ofViolation v).line.toNat + 1 < UInt32.size ↔ IsShort v
  entry_eq : IsShort v → ∀ p, entry p (.ofViolation v) = .ok (violationEntry p v)
  overflow : ¬IsShort v → ∀ p, entry p (.ofViolation v) = .error .overflow
  one_le : 1 ≤ lineNumber v
  eq_of_none : v.line = none → IsShort v ∧ lineNumber v = 1
  eq_of_some : ∀ n, v.line = some n → (lineNumber v : Int) = max 1 n.toInt
  monotone : ∀ w m n, v.line = some m → w.line = some n → m ≤ n →
    lineNumber v ≤ lineNumber w ∧ (IsShort w → IsShort v)

theorem numbersLine (v : Violation) : NumbersLine v where
  column := by
    have hcolumn : (Diagnostic.ofViolation v).startColumn = 0 := rfl
    rw [hcolumn]
    decide
  line_iff := toNat_line_add_one_lt_iff
  entry_eq := entry_of_isShort
  overflow := entry_of_not_isShort
  one_le := one_le_lineNumber v
  eq_of_none h := by
    rw [← lineNumber_lt_iff, lineNumber_of_none h]
    decide
  eq_of_some n hn := by
    rw [lineNumber_of_some hn]
    omega
  monotone w m n hv hw hle := by
    have hnumbers := lineNumber_le_lineNumber hv hw hle
    refine ⟨hnumbers, fun hshort => ?_⟩
    exact lineNumber_lt_iff.mp (lt_of_le_of_lt hnumbers (lineNumber_lt_iff.mpr hshort))

/-- A printout ends after some violations: they are printed, and then the fault is told
instead of anything else. -/
structure StopsAfter (before : List (Path × Violation)) (o : Printout) : Prop where
  stdout : o.stdout = String.join (violationEntries before)
  code : o.code = 101
  stderr : o.stderr = line Fault.overflow.message

theorem stopsAfter_outcome (h : execution.report = .ok report)
    (hlisting : (mapping here r settings).IsListing report listed)
    (hlisted : listedViolations listed = before ++ x :: after)
    (hbefore : ∀ y ∈ before, IsShort y.2) (hlong : ¬IsShort x.2) :
    StopsAfter before (outcome here r settings execution) := by
  have hordered := Execution.isOrdered_of_report h
  obtain rfl := hlisting.unique ((mapping here r settings).isListing_listing hordered)
  rw [outcome_of_report h, printout_of_not_isShort hlisted hbefore hlong]
  exact ⟨rfl, rfl, rfl⟩

/-- The violations of a report up to the first one whose line is not short are printed with
sound numbers. That one ends the check with an overflow. -/
theorem run_numbers_lines (here : Path) (r : CheckRequest) (settings : Settings)
    (execution : Execution) :
    (∀ v, NumbersLine v) ∧
    ∀ report, execution.report = .ok report →
      ∃ listed, (mapping here r settings).IsListing report listed ∧
        ((∀ x ∈ listedViolations listed, IsShort x.2) →
          Shows r report listed (outcome here r settings execution)) ∧
        ∀ before x after, listedViolations listed = before ++ x :: after →
          (∀ y ∈ before, IsShort y.2) → ¬IsShort x.2 →
          StopsAfter before (outcome here r settings execution) := by
  refine ⟨numbersLine, fun report hreport => ?_⟩
  have hlisting := (mapping here r settings).isListing_listing
    (Execution.isOrdered_of_report hreport)
  exact ⟨_, hlisting, shows_outcome hreport hlisting,
    fun _ _ _ => stopsAfter_outcome hreport hlisting⟩

section TwoLines

/-- A violation on the last line that fits 32 bits. -/
def lastShort : Violation := { message := "m", line := some 4294967295 }

/-- A violation on the line after it. -/
def firstLong : Violation := { message := "n", line := some 4294967296 }

/-- A process reports both. -/
def bothEnd : Execution := .ok {
  code := some 1
  stdout := "\x7b\"files\":\x7b\"/p/a.php\":\x7b\"messages\":[" ++
    "\x7b\"message\":\"m\",\"line\":4294967295\x7d," ++
    "\x7b\"message\":\"n\",\"line\":4294967296\x7d]\x7d\x7d\x7d"
  stderr := "" }

/-- The stored line of the second violation is the largest number, so the addition on it
overflows. The first violation is printed and the second one is not. -/
theorem bothEnd_overflows :
    bothEnd.report = .ok { files := [("/p/a.php", { messages := some [lastShort, firstLong] })] } ∧
      ¬(Diagnostic.ofViolation firstLong).line.toNat + 1 < UInt32.size ∧
      entry (.ofString "/p/a.php") (.ofViolation firstLong) = .error .overflow ∧
      outcome (.ofString "/p") {} {} bothEnd =
        { code := 101
          stdout := "/p/a.php:4294967295:1: m\n"
          stderr := "attempt to add with overflow\n" } := by
  have hreport : bothEnd.report =
      .ok { files := [("/p/a.php", { messages := some [lastShort, firstLong] })] } :=
    Execution.report_eq_ok_of_toOption (by decide +kernel)
  refine ⟨hreport, ?_, ?_, ?_⟩
  · decide +kernel
  · exact entry_of_not_isShort (mt toNat_line_add_one_lt_iff.mpr (by decide +kernel)) _
  · rw [outcome_of_report hreport]
    decide +kernel

end TwoLines

end DiagnosticRelay.Check
