import DiagnosticRelay.Proofs.Run.Sequence
import DiagnosticRelay.Proofs.Text.Trim

/-!
# Runs that fail

A run fails because its process did not start, because it printed nothing, or because
what it printed is no report; the exit code alone never decides it. A run that fails is
as if it had been dropped: what is in the store stays, and whoever waits next for the
same files gets the turn.

## Main definitions

* `Execution.FailsWith`: why an execution gives no report.
* `Machine.GoesWithoutTrace`: a run goes, and nothing else changes but whose turn it is.

## Main results

* `Execution.report_eq_error_iff`: the reasons, and no others.
* `Machine.failed_run_is_atomic`: failures at any moment of any schedule.
-/

namespace DiagnosticRelay

/-! ## Why runs fail -/

/-- Why an execution gives no report. A process that printed nothing is judged by its exit
code, and what it says about its failure are its errors or else how it ended. One that
printed something is judged by that alone. -/
inductive Execution.FailsWith : Execution → Failure → Prop where
  | notStarted {reason : String} : FailsWith (.error reason) (.notStarted reason)
  | noReport {o : ProcessOutput} (stdout : Text.IsBlank o.stdout) (code : o.code = some 0) :
    FailsWith (.ok o) .noReport
  | complained {o : ProcessOutput} {said : String} (stdout : Text.IsBlank o.stdout)
    (code : o.code ≠ some 0) (stderr : ¬ Text.IsBlank o.stderr)
    (trimmed : Text.IsTrimOf said o.stderr) : FailsWith (.ok o) (.analyserFailed said)
  | exited {o : ProcessOutput} {n : Int} (stdout : Text.IsBlank o.stdout) (code : o.code = some n)
    (nonzero : n ≠ 0) (stderr : Text.IsBlank o.stderr) :
    FailsWith (.ok o) (.analyserFailed ("exited with status " ++ toString n))
  | signalled {o : ProcessOutput} (stdout : Text.IsBlank o.stdout) (code : o.code = none)
    (stderr : Text.IsBlank o.stderr) :
    FailsWith (.ok o) (.analyserFailed "terminated by a signal")
  | malformed {o : ProcessOutput} {m : Report.Malformed} (stdout : ¬ Text.IsBlank o.stdout)
    (parse : Report.parse o.stdout = .error m) : FailsWith (.ok o) (.malformedReport m)

namespace ProcessOutput

variable {o : ProcessOutput} {f : Failure}

theorem isSuccess_iff : o.isSuccess = true ↔ o.code = some 0 := by
  rw [isSuccess, beq_iff_eq]

theorem report_of_not_isBlank (h : ¬ Text.IsBlank o.stdout) :
    o.report = (Report.parse o.stdout).mapError .malformedReport := by
  rw [report, if_neg fun hempty => h (Text.isEmpty_trim_iff.mp hempty)]

theorem report_of_isSuccess (h : Text.IsBlank o.stdout) (hcode : o.code = some 0) :
    o.report = .error .noReport := by
  rw [report, if_pos (Text.isEmpty_trim_iff.mpr h), if_pos (isSuccess_iff.mpr hcode)]

theorem report_of_not_isSuccess (h : Text.IsBlank o.stdout) (hcode : o.code ≠ some 0) :
    o.report = .error (.analyserFailed o.complaint) := by
  rw [report, if_pos (Text.isEmpty_trim_iff.mpr h),
    if_neg fun hsuccess => hcode (isSuccess_iff.mp hsuccess)]

theorem complaint_of_not_isBlank (h : ¬ Text.IsBlank o.stderr) :
    o.complaint = Text.trim o.stderr := by
  rw [complaint, if_neg fun hempty => h (Text.isEmpty_trim_iff.mp hempty)]

theorem complaint_of_isBlank (h : Text.IsBlank o.stderr) : o.complaint = o.ending := by
  rw [complaint, if_pos (Text.isEmpty_trim_iff.mpr h)]

/-- What a process says about its failure is one of the reasons. -/
theorem failsWith_complaint (h : Text.IsBlank o.stdout) (hcode : o.code ≠ some 0) :
    Execution.FailsWith (.ok o) (.analyserFailed o.complaint) := by
  by_cases hstderr : Text.IsBlank o.stderr
  · rw [complaint_of_isBlank hstderr, ending]
    cases hended : o.code with
    | none => exact .signalled h hended hstderr
    | some n => exact .exited h hended (fun hzero => hcode (hzero ▸ hended)) hstderr
  · rw [complaint_of_not_isBlank hstderr]
    exact .complained h hcode hstderr (Text.isTrimOf_trim _)

end ProcessOutput

/-- An execution gives no report for these reasons, and for no others. -/
theorem Execution.report_eq_error_iff {e : Execution} {f : Failure} :
    e.report = .error f ↔ e.FailsWith f := by
  constructor
  · intro h
    cases e with
    | error reason =>
      obtain rfl : Failure.notStarted reason = f := Except.error.inj h
      exact .notStarted
    | ok o =>
      change o.report = .error f at h
      by_cases hstdout : Text.IsBlank o.stdout
      · by_cases hcode : o.code = some 0
        · rw [ProcessOutput.report_of_isSuccess hstdout hcode] at h
          exact Except.error.inj h ▸ .noReport hstdout hcode
        · rw [ProcessOutput.report_of_not_isSuccess hstdout hcode] at h
          exact Except.error.inj h ▸ ProcessOutput.failsWith_complaint hstdout hcode
      · rw [ProcessOutput.report_of_not_isBlank hstdout] at h
        cases hparse : Report.parse o.stdout with
        | ok report => simp [hparse, Except.mapError] at h
        | error m =>
          rw [hparse] at h
          exact Except.error.inj h ▸ .malformed hstdout hparse
  · intro h
    cases h with
    | notStarted => rfl
    | noReport hstdout hcode => exact ProcessOutput.report_of_isSuccess hstdout hcode
    | complained hstdout hcode hstderr htrimmed =>
      rw [Text.isTrimOf_iff.mp htrimmed, ← ProcessOutput.complaint_of_not_isBlank hstderr]
      exact ProcessOutput.report_of_not_isSuccess hstdout hcode
    | @exited o n hstdout hcode hnonzero hstderr =>
      have hending : o.complaint = "exited with status " ++ toString n := by
        rw [ProcessOutput.complaint_of_isBlank hstderr, ProcessOutput.ending, hcode]
      rw [← hending]
      refine ProcessOutput.report_of_not_isSuccess hstdout ?_
      simpa [hcode] using hnonzero
    | @signalled o hstdout hcode hstderr =>
      have hending : o.complaint = "terminated by a signal" := by
        rw [ProcessOutput.complaint_of_isBlank hstderr, ProcessOutput.ending, hcode]
      rw [← hending]
      exact ProcessOutput.report_of_not_isSuccess hstdout (by simp [hcode])
    | malformed hstdout hparse =>
      change ProcessOutput.report _ = _
      rw [ProcessOutput.report_of_not_isBlank hstdout, hparse]
      rfl

/-- A run fails when its execution gives no report, and then the store stays. -/
theorem Launch.conclude_eq_error_iff {l : Launch} {e : Execution} {store : Store} {f : Failure} :
    (l.conclude e store).2 = .error f ↔ e.FailsWith f := by
  rw [← Execution.report_eq_error_iff, conclude]
  cases e.report <;> simp

theorem Launch.store_conclude_of_failsWith {l : Launch} {e : Execution} {store : Store}
    {f : Failure} (h : e.FailsWith f) : (l.conclude e store).1 = store := by
  rw [conclude, Execution.report_eq_error_iff.mpr h]

namespace Machine

variable {m after : Machine} {r s : Run} {id : String} {launch : Launch} {e : Execution}

/-! ## What a failed run leaves -/

/-- A run goes without a trace. The store, the settings and the other runs are as they
were, and so are the locks of all keys but its own, which goes to the first that waits.
The next runs to be launched are those that were due, and that one. -/
structure GoesWithoutTrace (m after : Machine) (r : Run) : Prop where
  root : after.root = m.root
  settings : after.settings = m.settings
  store : after.store = m.store
  runs : after.runs = m.runs.filter fun s => s.id ≠ r.id
  lock : ∀ key, after.guard.lock key =
    if key = r.key then (m.guard.lock key).release else m.guard.lock key
  turns : after.settle.runs = after.runs.map fun s =>
    if (m.guard.waitingOn r.key).head? = some s.id then { s with launch := some (m.launch s) }
    else m.advance s

/-- Once a run goes that holds its key, the turns are those that were there, and that of
the run that waited next on the key. -/
theorem advance_of_lock (hsound : m.IsSound) (hholder : m.guard.holder? r.key = some r.id)
    (hlaunch : after.launch s = m.launch s)
    (hlock : ∀ key, after.guard.lock key =
      if key = r.key then (m.guard.lock key).release else m.guard.lock key)
    (hs : s ∈ m.runs) (hne : s.id ≠ r.id) :
    after.advance s =
      if (m.guard.waitingOn r.key).head? = some s.id then { s with launch := some (m.launch s) }
      else m.advance s := by
  have hturn : after.guard.holder? s.key =
      if s.key = r.key then (m.guard.waitingOn r.key).head? else m.guard.holder? s.key := by
    have h := congrArg Lock.holder? (hlock s.key)
    change after.guard.holder? s.key = _ at h
    rw [h]
    split_ifs with hkey
    · rw [hkey]
      rfl
    · rfl
  rw [advance, advance, isDue, isDue, hlaunch]
  by_cases hkey : s.key = r.key
  · -- The key was held by the run that goes, so the others of the key have not had a turn.
    have hnot : m.guard.holder? s.key ≠ some s.id := by
      rw [hkey, hholder]
      exact fun h => hne (Option.some.inj h).symm
    have hwaits : s.isExecuting = false := by
      by_contra hexec
      exact hnot (hsound.hasTurn s hs (by simpa using hexec))
    rw [if_pos hkey] at hturn
    simp [hwaits, Guard.hasTurn, hturn, hnot]
  · -- On another key nobody waits for this one, and nobody's turn changes.
    have hnot : (m.guard.waitingOn r.key).head? ≠ some s.id := by
      intro h
      have hqueued : s.id ∈ m.guard.queue s.key :=
        Guard.mem_queue_iff.mpr (List.mem_map_of_mem (f := fun r => (r.id, r.key)) hs)
      have hwaiting := hsound.proper.mem_queue_of_mem_waitingOn (List.mem_of_mem_head? h)
      exact hkey (hsound.proper.key_unique hqueued hwaiting)
    rw [if_neg hkey] at hturn
    simp [Guard.hasTurn, hturn, hnot]

/-- A run that holds its key and goes leaves no trace. -/
theorem goesWithoutTrace_cancel (hsound : m.IsSound)
    (hholder : m.guard.holder? r.key = some r.id) : m.GoesWithoutTrace (m.cancel r.id) r := by
  have hlock (key : RunKey) : (m.cancel r.id).guard.lock key =
      if key = r.key then (m.guard.lock key).release else m.guard.lock key := by
    rw [guard_cancel]
    exact hsound.proper.lock_release hholder key
  refine ⟨rfl, rfl, rfl, rfl, hlock, List.map_congr_left fun s hs => ?_⟩
  obtain ⟨hs, hne⟩ := List.mem_filter.mp hs
  exact advance_of_lock hsound hholder rfl hlock hs (by simpa using hne)

/-- A run whose execution gives no report goes without a trace. -/
theorem goesWithoutTrace_of_failsWith (hsound : m.IsSound) {f : Failure} (h : e.FailsWith f)
    (hr : r ∈ m.runs) (hid : r.id = id) (hfixed : r.launch = some launch)
    (hlaunch : m.executing? id = some launch) : m.GoesWithoutTrace (m.finish id e).1 r := by
  have hfinish : (m.finish id e).1 = m.cancel r.id := by
    rw [finish, hlaunch, hid]
    simp only [Launch.store_conclude_of_failsWith h]
    rfl
  rw [hfinish]
  exact goesWithoutTrace_cancel hsound (hsound.hasTurn r hr (isExecuting_of_launch hfixed))

/-- At any moment of any schedule, when the process of a run ends, the run fails with a
failure exactly when its execution has that reason to fail, whatever it was about. Then it
goes without a trace. -/
theorem failed_run_is_atomic (root : Path) (settings : Settings) (store : Store)
    (events : List Event) (id : String) (launch : Launch) (e : Execution)
    (hlaunch : (afterAll { root, settings, store } events).executing? id = some launch) :
    let m := afterAll { root, settings, store } events
    ∃ r ∈ m.runs, r.id = id ∧ r.launch = some launch ∧
      ∃ outcome, (m.finish id e).2 = some ⟨id, outcome⟩ ∧
        (∀ f, outcome = .error f ↔ e.FailsWith f) ∧
        ∀ f, outcome = .error f → m.GoesWithoutTrace (m.finish id e).1 r := by
  intro m
  have hsound : m.IsSound := isSound_afterAll (isSound_of_runs_nil rfl) events
  obtain ⟨r, hr, hid, hfixed⟩ := executing?_eq_some hlaunch
  have hended : (m.finish id e).2 = some ⟨id, (launch.conclude e m.store).2⟩ := by
    rw [finish, hlaunch]
  refine ⟨r, hr, hid, hfixed, _, hended, fun f => Launch.conclude_eq_error_iff, fun f hf => ?_⟩
  exact goesWithoutTrace_of_failsWith hsound (Launch.conclude_eq_error_iff.mp hf) hr hid hfixed
    hlaunch

section Garbled

/-- While a file and the project are analysed, another run waits for the file. -/
def waitingRuns : List Event := [
  .start "first" (some (.ofString "/p/a.php")), .start "project" none,
  .start "second" (some (.ofString "/p/./a.php")), .turn "first", .turn "second", .turn "project"]

/-- A process prints something else than a report, and succeeds. -/
def garbledEnd : Execution := .ok { code := some 0, stdout := "PHP Warning: oops", stderr := "" }

theorem failsWith_garbledEnd : ∃ f, garbledEnd.FailsWith f := by
  have hparse : (Report.parse "PHP Warning: oops").toOption = none := by decide +kernel
  cases h : Report.parse "PHP Warning: oops" with
  | ok report =>
    rw [h] at hparse
    cases hparse
  | error m =>
    refine ⟨.malformedReport m, .malformed ?_ h⟩
    rw [← Text.isEmpty_trim_iff]
    decide +kernel

/-- The run fails although its process succeeded. The run on the project goes on, and the
one that waited for the file is launched. -/
theorem failed_run_is_atomic_garbledEnd :
    let m := afterAll { root := .ofString "/p" } waitingRuns
    ∃ launch, m.executing? "first" = some launch ∧
      (∃ f, (m.finish "first" garbledEnd).2 = some ⟨"first", .error f⟩) ∧
      (m.finish "first" garbledEnd).1.store = m.store ∧
      (m.finish "first" garbledEnd).1.runs = m.runs.tail ∧
      (m.finish "first" garbledEnd).1.settle.runs.map (·.isExecuting) = [true, true] := by
  intro m
  have hlaunch : m.executing? "first" =
      some (.of (.ofString "/p") {} .empty (some (.ofString "/p/a.php"))) := by decide +kernel
  obtain ⟨r, -, hid, -, outcome, hended, hfails, htrace⟩ :=
    failed_run_is_atomic (.ofString "/p") {} .empty waitingRuns "first" _ garbledEnd hlaunch
  obtain ⟨f, hf⟩ := failsWith_garbledEnd
  have houtcome := (hfails f).mpr hf
  have hgone : m.GoesWithoutTrace (m.finish "first" garbledEnd).1 r := htrace f houtcome
  have hruns : (m.finish "first" garbledEnd).1.runs = m.runs.tail := by
    rw [hgone.runs, hid]
    decide +kernel
  exact ⟨_, hlaunch, ⟨f, houtcome ▸ hended⟩, hgone.store, hruns, by decide +kernel⟩

end Garbled

end Machine

end DiagnosticRelay
