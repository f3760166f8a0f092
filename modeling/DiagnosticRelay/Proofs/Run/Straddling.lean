import DiagnosticRelay.Proofs.Run.Overlap
import Mathlib.Tactic.IntervalCases

/-!
# Runs that straddle others

A run lasts from its turn to the end of its process. Runs with one key follow one
another, so they end in the order of their turns. Runs with different keys do not wait for
each other: a run on the project may have its turn before a run on a file and end after
it. Its report is then older than the one of the file, and still it is what the store says
afterwards, since the store goes by the ends of runs and not by their turns.

## Main definitions

* `Machine.moment`: the machine after so many events.
* `Machine.Span`: a run from its turn to its end.

## Main results

* `Machine.exists_span`: every conclusion is the end of such a run.
* `Machine.Span.ended_lt_turned`: runs with one key follow one another.
* `Machine.isOfLast`: every entry is of the run that ended last.
* `Machine.entry_after_straddling`: a run on the project that straddles a run on a file.
* `Machine.stale_run_overwrites`: the older report replaces the newer one.
-/

namespace DiagnosticRelay

/-- A run that decides a path leaves what its report says, unless it overlooks the path. -/
theorem Conclusion.says_after {c : Conclusion} {report : Report} {p : Path}
    (hreport : c.execution.report = .ok report) (hcovers : c.launch.Covers report p)
    (hseen : ¬ c.Overlooks p) : c.launch.mapping.Says report p (c.after.get? p) := by
  have hlaunch : ¬ c.launch.Overlooks report c.before p := fun ⟨hclean, hmissed⟩ =>
    hseen ⟨⟨report, hreport, hclean⟩, hmissed⟩
  rw [Conclusion.after_eq hreport, Launch.get?_apply_of_covers hcovers hlaunch]
  exact Mapping.says_entryOf _ _ _ (Execution.isOrdered_of_report hreport)

namespace Machine

variable {m : Machine} {events : List Event} {event : Event} {r : Run} {c : Conclusion}
  {id : String} {launch : Launch} {execution : Execution} {p : Path} {k : Nat}

/-! ## Moments of a schedule -/

/-- The machine after the first events of a schedule. -/
def moment (m : Machine) (events : List Event) (k : Nat) : Machine := m.afterAll (events.take k)

theorem moment_succ (h : events[k]? = some event) :
    m.moment events (k + 1) = (m.moment events k).step event := by
  rw [moment, List.take_add_one, h, Option.toList_some, afterAll_concat]
  rfl

theorem moment_succ_of_none (h : events[k]? = none) :
    m.moment events (k + 1) = m.moment events k := by
  rw [moment, List.take_add_one, h, Option.toList_none, List.append_nil]
  rfl

theorem isSound_moment (hruns : m.runs = []) (k : Nat) : (m.moment events k).IsSound :=
  isSound_afterAll (isSound_of_runs_nil hruns) _

/-! ## Runs that are executed -/

/-- What is executed under the id of a run is its launch. -/
theorem IsSound.executing?_eq (h : m.IsSound) (hr : r ∈ m.runs) :
    m.executing? r.id = r.launch := by
  cases hfind : m.runs.find? fun s => s.id = r.id with
  | none => exact absurd hr fun hr => by simpa using List.find?_eq_none.mp hfind r hr
  | some s =>
    have hid : s.id = r.id := by simpa using List.find?_some hfind
    obtain rfl := h.eq_of_id_eq (List.mem_of_find?_eq_some hfind) hr hid
    rw [executing?, hfind, Option.bind_some]

/-- A run that is executed after an event was executed before, or has its turn now. -/
theorem IsSound.executing?_step (h : m.IsSound)
    (hexecuting : (m.step event).executing? id = some launch) :
    m.executing? id = some launch ∨ m.executing? id = none ∧ event = .turn id := by
  obtain ⟨r, hr, rfl, hlaunch⟩ := executing?_eq_some hexecuting
  rcases mem_runs_step hr with hr | ⟨id, target, -, -, rfl⟩ | ⟨before, hbefore, rfl, hdue, rfl⟩
  · rw [h.executing?_eq hr]
    exact .inl hlaunch
  · cases hlaunch
  · refine .inr ⟨?_, rfl⟩
    rw [h.executing?_eq hbefore]
    exact (isDue_iff.mp hdue).1

/-- A run is not executed any more once its process has ended. -/
theorem executing?_step_finish (h : m.executing? id = some launch) :
    (m.step (.finish id execution)).executing? id = none := by
  have hnone : (m.runs.filter fun r => r.id ≠ id).find? (fun r => r.id = id) = none := by
    rw [List.find?_eq_none]
    intro r hr
    simpa using (List.mem_filter.mp hr).2
  rw [step, finish, h, executing?]
  exact hnone ▸ rfl

/-- What a run is launched for is what it was started for. -/
theorem key_of_mem_runs (hinitial : ∀ r ∈ m.runs, r.launch = none)
    (hr : r ∈ (m.afterAll events).runs) (hlaunch : r.launch = some launch) :
    r.key = .ofTarget launch.target := by
  induction events using List.reverseRecOn generalizing r with
  | nil => cases (hinitial r hr).symm.trans hlaunch
  | append_singleton events event ih =>
    rw [afterAll_concat] at hr
    rcases mem_runs_step hr with hbefore | ⟨id, target, -, -, rfl⟩ | ⟨before, -, rfl, -, rfl⟩
    · exact ih hbefore hlaunch
    · cases hlaunch
    · rw [← Option.some.inj hlaunch]
      cases htarget : before.target with
      | none => simp [Run.key, Machine.launch, Launch.of, htarget]
      | some t => simp [Run.key, Machine.launch, Launch.of, htarget, RunKey.ofTarget]

/-! ## Spans -/

/-- A run of a schedule, from its turn to the end of its process. -/
structure Span (m : Machine) (events : List Event) where
  id : String
  /-- What the run fixes at its turn. -/
  launch : Launch
  /-- What becomes of its process. -/
  execution : Execution
  /-- The number of events before the turn. -/
  turned : Nat
  /-- The number of events before the end. -/
  ended : Nat
  turned_lt_ended : turned < ended
  turn : events[turned]? = some (.turn id)
  waits : (m.moment events turned).executing? id = none
  executes : ∀ k, turned < k → k ≤ ended → (m.moment events k).executing? id = some launch
  ends : events[ended]? = some (.finish id execution)

/-- A run that is executed has had its turn, and was executed ever since. -/
theorem exists_turned (hruns : m.runs = [])
    (h : (m.moment events k).executing? id = some launch) :
    ∃ turned < k, events[turned]? = some (.turn id) ∧
      (m.moment events turned).executing? id = none ∧
      ∀ j, turned < j → j ≤ k → (m.moment events j).executing? id = some launch := by
  induction k with
  | zero =>
    change m.executing? id = some launch at h
    simp [executing?, hruns] at h
  | succ k ih =>
    -- The last event is the turn of the run, or the run had its turn before.
    have hbefore : (m.moment events k).executing? id = some launch ∨
        (m.moment events k).executing? id = none ∧ events[k]? = some (.turn id) := by
      cases hevent : events[k]? with
      | none => exact .inl (moment_succ_of_none hevent ▸ h)
      | some event =>
        rw [moment_succ hevent] at h
        refine ((isSound_moment hruns k).executing?_step h).imp_right ?_
        rintro ⟨hwaits, rfl⟩
        exact ⟨hwaits, rfl⟩
    rcases hbefore with hbefore | ⟨hwaits, hturn⟩
    · obtain ⟨turned, hlt, hturn, hwaits, hexecutes⟩ := ih hbefore
      refine ⟨turned, Nat.lt_succ_of_lt hlt, hturn, hwaits, fun j hj hjk => ?_⟩
      rcases Nat.le_succ_iff.mp hjk with hjk | rfl
      · exact hexecutes j hj hjk
      · exact h
    · refine ⟨k, Nat.lt_succ_self k, hturn, hwaits, fun j hj hjk => ?_⟩
      rw [Nat.le_antisymm hjk hj]
      exact h

namespace Span

/-- The end of a run. -/
def conclusion (r : m.Span events) : Conclusion :=
  ⟨r.id, r.launch, r.execution, (m.moment events r.ended).store⟩

/-- What a run has its turn for. -/
def key (r : m.Span events) : RunKey := .ofTarget r.launch.target

theorem executing? (r : m.Span events) :
    (m.moment events r.ended).executing? r.id = some r.launch :=
  r.executes r.ended r.turned_lt_ended (Nat.le_refl _)

theorem conclusion?_eq (r : m.Span events) :
    (m.moment events r.ended).conclusion? (.finish r.id r.execution) = some r.conclusion := by
  rw [conclusion?, r.executing?]
  rfl

theorem store_moment (r : m.Span events) :
    (m.moment events (r.ended + 1)).store = r.conclusion.after := by
  rw [moment_succ r.ends]
  exact (store_step_of_conclusion r.conclusion?_eq).2

theorem executing?_ended_succ (r : m.Span events) :
    (m.moment events (r.ended + 1)).executing? r.id = none := by
  rw [moment_succ r.ends]
  exact executing?_step_finish r.executing?

variable (r s : m.Span events)

/-- One event ends one run. -/
theorem id_eq_of_ended_eq (h : r.ended = s.ended) : r.id = s.id ∧ r.conclusion = s.conclusion := by
  have hends := s.ends
  rw [← h, r.ends] at hends
  obtain ⟨hid, hexecution⟩ := Event.finish.inj (Option.some.inj hends)
  have hconclusion := s.conclusion?_eq
  rw [← h, ← hid, ← hexecution, r.conclusion?_eq] at hconclusion
  exact ⟨hid, Option.some.inj hconclusion⟩

/-- Runs with one id follow one another. -/
theorem ended_lt_turned_of_id_eq (hid : r.id = s.id) (h : r.ended < s.ended) :
    r.ended < s.turned := by
  by_contra hle
  -- Else the later run would be executed right after the end of the earlier.
  have hexecuting := s.executes (r.ended + 1) (by omega) h
  rw [← hid, r.executing?_ended_succ] at hexecuting
  cases hexecuting

/-- One event launches one run. -/
theorem ended_eq_of_turned_eq (h : r.turned = s.turned) : r.ended = s.ended := by
  have hturn := s.turn
  rw [← h, r.turn] at hturn
  have hid := Event.turn.inj (Option.some.inj hturn)
  have hr := r.turned_lt_ended
  have hs := s.turned_lt_ended
  rcases Nat.lt_trichotomy r.ended s.ended with hlt | heq | hlt
  · have := r.ended_lt_turned_of_id_eq s hid hlt
    omega
  · exact heq
  · have := s.ended_lt_turned_of_id_eq r hid.symm hlt
    omega

/-- Runs with one key follow one another. -/
theorem ended_lt_turned (hruns : m.runs = []) (hkey : r.key = s.key) (h : r.ended < s.ended) :
    r.ended < s.turned := by
  by_contra hle
  have hne : s.turned ≠ r.ended := fun heq => by
    have hturn := s.turn
    rw [heq, r.ends] at hturn
    cases hturn
  -- Else both would be executed when the earlier ends, and a key has one holder.
  obtain ⟨a, ha, hida, hlauncha⟩ := executing?_eq_some r.executing?
  obtain ⟨b, hb, hidb, hlaunchb⟩ := executing?_eq_some (s.executes r.ended (by omega) h.le)
  have hinitial : ∀ r ∈ m.runs, r.launch = none := by simp [hruns]
  have hkeys : a.key = b.key := by
    rw [key_of_mem_runs hinitial ha hlauncha, key_of_mem_runs hinitial hb hlaunchb]
    exact hkey
  have hsame := (isSound_moment hruns r.ended).eq_of_key_eq ha hb
    (isExecuting_of_launch hlauncha) (isExecuting_of_launch hlaunchb) hkeys
  have hid : r.id = s.id := by rw [← hida, ← hidb, hsame]
  exact hle (r.ended_lt_turned_of_id_eq s hid h)

/-- A run that has its turn first and does not end first has another key. -/
theorem key_ne (hruns : m.runs = []) (hturned : r.turned < s.turned) (hended : s.ended ≤ r.ended) :
    s.key ≠ r.key := by
  intro hkey
  have hs := s.turned_lt_ended
  rcases Nat.lt_or_eq_of_le hended with hlt | heq
  · have := s.ended_lt_turned r hruns hkey hlt
    omega
  · -- The two would be one run, which does not wait for its turn while it is executed.
    have hexecuting := r.executes s.turned hturned (by omega)
    rw [← (s.id_eq_of_ended_eq r heq).1, s.waits] at hexecuting
    cases hexecuting

end Span

/-- Every conclusion is the end of a run of the schedule. -/
theorem exists_span (hruns : m.runs = []) (hevent : events[k]? = some event)
    (h : (m.moment events k).conclusion? event = some c) :
    ∃ r : m.Span events, r.ended = k ∧ r.conclusion = c := by
  cases event with
  | finish id execution =>
    obtain ⟨launch, hlaunch, rfl⟩ := Option.map_eq_some_iff.mp h
    obtain ⟨turned, hlt, hturn, hwaits, hexecutes⟩ := exists_turned hruns hlaunch
    exact ⟨⟨id, launch, execution, turned, k, hlt, hturn, hwaits, hexecutes, hevent⟩, rfl, rfl⟩
  | _ => cases h

/-! ## Entries -/

/-- At a moment the entry of a path is the one that the run left that ended last of those
that decided the path, or the first one if there was no such run. -/
def IsOfLast (m : Machine) (events : List Event) (n : Nat) (p : Path) : Prop :=
  (∃ last : m.Span events, last.ended < n ∧ last.conclusion.Decides p ∧
    (∀ r : m.Span events, r.ended < n → r.conclusion.Decides p → r.ended ≤ last.ended) ∧
    (m.moment events n).store.get? p = last.conclusion.after.get? p) ∨
  (∀ r : m.Span events, r.ended < n → ¬ r.conclusion.Decides p) ∧
    (m.moment events n).store.get? p = m.store.get? p

/-- An event after which a path keeps its entry, and that ends no run that decides it. -/
theorem IsOfLast.succ_of_kept (h : m.IsOfLast events k p)
    (hstore : (m.moment events (k + 1)).store.get? p = (m.moment events k).store.get? p)
    (hnone : ∀ r : m.Span events, r.ended = k → ¬ r.conclusion.Decides p) :
    m.IsOfLast events (k + 1) p := by
  have hearlier (r : m.Span events) (hr : r.ended < k + 1) (hdecides : r.conclusion.Decides p) :
      r.ended < k :=
    lt_of_le_of_ne (Nat.le_of_lt_succ hr) fun heq => hnone r heq hdecides
  rw [IsOfLast, hstore]
  rcases h with ⟨last, hended, hdecides, hlast, hentry⟩ | ⟨hdecides, hentry⟩
  · exact .inl ⟨last, Nat.lt_succ_of_lt hended, hdecides,
      fun r hr hdecides => hlast r (hearlier r hr hdecides) hdecides, hentry⟩
  · exact .inr ⟨fun r hr h => hdecides r (hearlier r hr h) h, hentry⟩

/-- Every entry is of the run that ended last. -/
theorem isOfLast (hruns : m.runs = []) (k : Nat) (p : Path) : m.IsOfLast events k p := by
  induction k with
  | zero => exact .inr ⟨fun r hr => absurd hr (Nat.not_lt_zero _), rfl⟩
  | succ k ih =>
    cases hevent : events[k]? with
    | none =>
      refine ih.succ_of_kept (by rw [moment_succ_of_none hevent]) fun r hr => ?_
      rw [← hr, r.ends] at hevent
      cases hevent
    | some event =>
      have hends (r : m.Span events) (hr : r.ended = k) :
          (m.moment events k).conclusion? event = some r.conclusion := by
        rw [← hr, r.ends] at hevent
        rw [← Option.some.inj hevent, ← hr]
        exact r.conclusion?_eq
      cases hconclusion : (m.moment events k).conclusion? event with
      | none =>
        refine ih.succ_of_kept ?_ fun r hr => ?_
        · rw [moment_succ hevent, store_step_of_none hconclusion]
        · rw [hends r hr] at hconclusion
          cases hconclusion
      | some c =>
        -- A run ends, and it becomes the last one if it decides the path.
        obtain ⟨r, rfl, rfl⟩ := exists_span hruns hevent hconclusion
        by_cases hdecides : r.conclusion.Decides p
        · exact .inl ⟨r, Nat.lt_succ_self _, hdecides, fun s hs _ => Nat.le_of_lt_succ hs,
            by rw [r.store_moment]⟩
        · refine ih.succ_of_kept ?_ fun s hs => ?_
          · rw [r.store_moment]
            exact Conclusion.get?_after_of_not_decides hdecides
          · rwa [(s.id_eq_of_ended_eq r hs).2]

/-- A run on the project has its turn before a run on a file that succeeds and decides the
file, and ends after it. -/
structure Span.Straddles (w f : m.Span events) (p : Path) : Prop where
  project : w.launch.target = none
  file : ∃ target, f.launch.target = some target ∧ Path.Same target p
  decides : f.conclusion.Decides p
  turned : w.turned < f.turned
  ended : f.ended < w.ended

/-- A run on the project leaves what its report says, whatever was there. -/
theorem Span.says_of_project (w : m.Span events) (hproject : w.launch.target = none)
    {report : Report} (hreport : w.execution.report = .ok report) (p : Path) :
    w.launch.mapping.Says report p ((m.moment events (w.ended + 1)).store.get? p) := by
  have hcovers : w.launch.Covers report p := by
    rw [Launch.Covers, hproject]
    trivial
  rw [w.store_moment]
  refine Conclusion.says_after hreport hcovers ?_
  rintro ⟨⟨other, -, ⟨target, htarget, -⟩, -⟩, -⟩
  rw [conclusion, hproject] at htarget
  cases htarget

/-- A run on the project that fails leaves the entry of the run on a file that it
straddles, if no other run that decides the file ends in between. -/
theorem Span.Straddles.get?_of_failure {w f : m.Span events} (h : w.Straddles f p)
    (hruns : m.runs = []) {failure : Failure} (hfailure : w.execution.report = .error failure)
    (hnone : ∀ r : m.Span events, r.turned ≠ f.turned → f.ended < r.ended → r.ended < w.ended →
      ¬ r.conclusion.Decides p) :
    (m.moment events (w.ended + 1)).store.get? p =
      (m.moment events (f.ended + 1)).store.get? p := by
  have hfailed (r : m.Span events) (hr : r.ended = w.ended) : ¬ r.conclusion.Decides p := by
    rw [(r.id_eq_of_ended_eq w hr).2]
    rintro ⟨report, hreport, -⟩
    rw [conclusion, hfailure] at hreport
    cases hreport
  have hofLast : m.IsOfLast events (w.ended + 1) p := isOfLast hruns _ p
  rcases hofLast with ⟨last, hended, hdecides, hlast, hentry⟩ | ⟨hall, -⟩
  · have hle := hlast f (Nat.lt_succ_of_lt h.ended) h.decides
    have hne : last.ended ≠ w.ended := fun heq => hfailed last heq hdecides
    -- The run that ended last is the one on the file.
    have heq : last.ended = f.ended := by
      by_contra hother
      have hturned : last.turned ≠ f.turned := fun heq => hother (last.ended_eq_of_turned_eq f heq)
      exact hnone last hturned (by omega) (by omega) hdecides
    rw [hentry, f.store_moment, (last.id_eq_of_ended_eq f heq).2]
  · exact absurd h.decides (hall f (Nat.lt_succ_of_lt h.ended))

/-- A run on the project straddles a run on a file, and no run with a later turn than that
decides the file before the run on the project ends. If the run on the project succeeds,
the file has what its report says, and the newer report of the file is gone. If it fails,
the file keeps what its own run left, unless another run with an earlier turn decides it in
between. Of all paths and at every moment, the entry is of the run that ended last of those
that decided the path, and a run with a later turn that ended before has another key. The
entry is what the report of that run says, unless the run overlooks the path. -/
theorem entry_after_straddling (hruns : m.runs = []) {w f : m.Span events} {p : Path}
    (h : w.Straddles f p)
    (hlater : ∀ r : m.Span events, f.turned < r.turned → r.ended < w.ended →
      ¬ r.conclusion.Decides p) :
    (∀ report, w.execution.report = .ok report →
      w.launch.mapping.Says report p ((m.moment events (w.ended + 1)).store.get? p)) ∧
    (∀ failure, w.execution.report = .error failure →
      (∀ r : m.Span events, r.turned < f.turned → f.ended < r.ended → r.ended < w.ended →
        ¬ r.conclusion.Decides p) →
      (m.moment events (w.ended + 1)).store.get? p =
        (m.moment events (f.ended + 1)).store.get? p) ∧
    ∀ (n : Nat) (q : Path),
      (∃ last : m.Span events, last.ended < n ∧ last.conclusion.Decides q ∧
        (∀ r : m.Span events, r.ended < n → r.conclusion.Decides q →
          r.ended ≤ last.ended ∧ (last.turned < r.turned → r.key ≠ last.key)) ∧
        (m.moment events n).store.get? q = last.conclusion.after.get? q ∧
        (¬ last.conclusion.Overlooks q → ∃ report, last.execution.report = .ok report ∧
          last.launch.mapping.Says report q ((m.moment events n).store.get? q))) ∨
      (∀ r : m.Span events, r.ended < n → ¬ r.conclusion.Decides q) ∧
        (m.moment events n).store.get? q = m.store.get? q := by
  refine ⟨fun report hreport => w.says_of_project h.project hreport p,
    fun failure hfailure hearlier => ?_, fun n q => ?_⟩
  · refine h.get?_of_failure hruns hfailure fun r hne hfirst hlast => ?_
    rcases Nat.lt_or_gt_of_ne hne with hlt | hgt
    · exact hearlier r hlt hfirst hlast
    · exact hlater r hgt hlast
  · refine (m.isOfLast hruns n q).imp_left ?_
    rintro ⟨last, hended, hdecides, hlast, hentry⟩
    refine ⟨last, hended, hdecides, fun r hr hother => ?_, hentry, fun hseen => ?_⟩
    · have hle := hlast r hr hother
      exact ⟨hle, fun hturned => last.key_ne r hruns hturned hle⟩
    · obtain ⟨report, hreport, hcovers⟩ := hdecides
      rw [hentry]
      exact ⟨report, hreport, Conclusion.says_after hreport hcovers hseen⟩

/-! ## A report that is replaced by an older one -/

section Stale

/-- The process of the project's run ends with a violation in the file. -/
def staleEnd : Execution := .ok {
  code := some 1
  stdout := "\x7b\"files\":\x7b\"/p/a.php\":\x7b\"messages\":[\x7b\"message\":\"m\"\x7d]\x7d\x7d\x7d"
  stderr := "" }

/-- While the project is analysed, the file is corrected and analysed. -/
def staleSchedule : List Event := [
  .start "project" none, .turn "project", .start "file" (some sharedFile), .turn "file",
  .finish "file" cleanEnd, .finish "project" staleEnd]

/-- The run on the project. -/
def staleProject : sharedMachine.Span staleSchedule where
  id := "project"
  launch := .of (.ofString "/p") {} .empty none
  execution := staleEnd
  turned := 1
  ended := 5
  turned_lt_ended := by decide
  turn := rfl
  waits := by decide +kernel
  executes k hfirst hlast := by interval_cases k <;> decide +kernel
  ends := rfl

/-- The run on the file. -/
def freshFile : sharedMachine.Span staleSchedule where
  id := "file"
  launch := .of (.ofString "/p") {} .empty (some sharedFile)
  execution := cleanEnd
  turned := 3
  ended := 4
  turned_lt_ended := by decide
  turn := rfl
  waits := by decide +kernel
  executes k hfirst hlast := by
    interval_cases k
    decide +kernel
  ends := rfl

theorem staleProject_straddles : staleProject.Straddles freshFile sharedFile where
  project := rfl
  file := ⟨_, rfl, sharedFile.normalize_same⟩
  decides :=
    have hclean : freshFile.launch.IsCleanOn {} sharedFile :=
      ⟨⟨_, rfl, sharedFile.normalize_same⟩, rfl⟩
    ⟨{}, Execution.report_eq_ok_of_toOption (by decide +kernel), hclean.covers⟩
  turned := by decide
  ended := by decide

/-- No run has a later turn than the one on the file. -/
theorem turned_le_freshFile (r : sharedMachine.Span staleSchedule) :
    r.turned ≤ freshFile.turned := by
  have hbound : r.turned < staleSchedule.length := (List.getElem?_eq_some_iff.mp r.turn).1
  by_contra hlt
  have hturn := r.turn
  have hcases : r.turned = 4 ∨ r.turned = 5 := by
    simp only [staleSchedule, freshFile, List.length_cons, List.length_nil] at hbound hlt
    omega
  rcases hcases with hcase | hcase <;> rw [hcase] at hturn <;> cases hturn

/-- The file was found without violations when its run ended, and no run has a later turn.
Then the older run on the project ends and gives the file an entry. -/
theorem stale_run_overwrites :
    ∃ w f : sharedMachine.Span staleSchedule, w.Straddles f sharedFile ∧
      (∀ r : sharedMachine.Span staleSchedule, f.turned < r.turned →
        ¬ r.conclusion.Decides sharedFile) ∧
      (sharedMachine.moment staleSchedule (f.ended + 1)).store.contains sharedFile = false ∧
      (sharedMachine.moment staleSchedule (w.ended + 1)).store.contains sharedFile = true :=
  ⟨staleProject, freshFile, staleProject_straddles,
    fun r hr => absurd hr (Nat.not_lt.mpr (turned_le_freshFile r)), by decide +kernel,
    by decide +kernel⟩

/-- What the file has after both runs is what the project's report says. -/
theorem entry_after_straddling_staleProject :
    ∃ report, staleProject.execution.report = .ok report ∧
      staleProject.launch.mapping.Says report sharedFile
        ((sharedMachine.moment staleSchedule 6).store.get? sharedFile) := by
  have hread : staleEnd.report.toOption.isSome = true := by decide +kernel
  obtain ⟨report, hreport⟩ := Option.isSome_iff_exists.mp hread
  have hreport := Execution.report_eq_ok_of_toOption hreport
  have hlater (r : sharedMachine.Span staleSchedule) (hr : freshFile.turned < r.turned)
      (_ : r.ended < staleProject.ended) : ¬ r.conclusion.Decides sharedFile :=
    absurd hr (Nat.not_lt.mpr (turned_le_freshFile r))
  exact ⟨report, hreport,
    (entry_after_straddling rfl staleProject_straddles hlater).1 report hreport⟩

end Stale

end Machine

end DiagnosticRelay
