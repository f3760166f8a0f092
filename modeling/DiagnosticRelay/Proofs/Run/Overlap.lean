import DiagnosticRelay.Proofs.Run.Schedule

/-!
# Runs that overlap

Runs with different keys are executed together, and each applies its report in one
step when its process ends. The store is decided by these steps in the order in which
they happen, path by path, and a path should have an entry exactly when the last run
that decided it reported something for it.

This fails for one reason only. A run on a file looks for an entry of the file before
its process starts and clears the file afterwards only if it saw one. An entry that
another run makes in between outlives a report without findings.

## Main definitions

* `Conclusion`: a run whose process has ended, and the store it met.
* `Machine.concluded`: the conclusions of a schedule, in their order.
* `Conclusion.Overlooks`: a conclusion does not clear its file.

## Main results

* `Machine.get?_afterAll`: entries after a schedule.
* `Machine.contains_iff_reports_iff`: when entries are what they should be.
* `Machine.overlooked_entry`: a schedule after which they are not.
-/

namespace DiagnosticRelay

/-! ## Conclusions -/

/-- A run whose process has ended. -/
structure Conclusion where
  id : String
  /-- What the run had fixed. -/
  launch : Launch
  /-- What became of its process. -/
  execution : Execution
  /-- The store right before the report is applied. -/
  before : Store

namespace Conclusion

variable {c : Conclusion} {p : Path}

/-- The store right after the report is applied. -/
def after (c : Conclusion) : Store := (c.launch.conclude c.execution c.before).1

/-- The paths that the run lists; none if it fails. -/
def touched (c : Conclusion) : List Path :=
  match (c.launch.conclude c.execution c.before).2 with
  | .ok summary => summary.touched
  | .error _ => []

/-- The run succeeds and decides a path. -/
def Decides (p : Path) (c : Conclusion) : Prop :=
  ∃ report, c.execution.report = .ok report ∧ c.launch.Covers report p

/-- The run succeeds and reports a violation for a path. -/
def Reports (p : Path) (c : Conclusion) : Prop :=
  ∃ report, c.execution.report = .ok report ∧ c.launch.mapping.Reports report p

/-- The run is on a file and succeeds without findings. -/
def IsCleanOn (p : Path) (c : Conclusion) : Prop :=
  ∃ report, c.execution.report = .ok report ∧ c.launch.IsCleanOn report p

/-- The run is on a file and succeeds without findings. The file had no entry when the
run got its turn, and has one right before the report is applied. -/
def Overlooks (p : Path) (c : Conclusion) : Prop :=
  c.IsCleanOn p ∧ c.launch.hadEntry = false ∧ c.before.contains p = true

theorem Reports.decides (h : c.Reports p) : c.Decides p := by
  obtain ⟨report, hreport, hreports⟩ := h
  exact ⟨report, hreport, Mapping.covers_of_reports hreports⟩

theorem IsCleanOn.decides (h : c.IsCleanOn p) : c.Decides p := by
  obtain ⟨report, hreport, hclean⟩ := h
  exact ⟨report, hreport, hclean.covers⟩

theorem IsCleanOn.not_reports (h : c.IsCleanOn p) : ¬ c.Reports p := by
  obtain ⟨report, hreport, hclean⟩ := h
  rintro ⟨other, hother, hreports⟩
  obtain rfl := Except.ok.inj (hreport.symm.trans hother)
  exact hclean.not_reports hreports

theorem after_eq {report : Report} (h : c.execution.report = .ok report) :
    c.after = (c.launch.apply report c.before).1 := by
  rw [after, Launch.conclude_of_report h]

theorem touched_eq {report : Report} (h : c.execution.report = .ok report) :
    c.touched = (c.launch.apply report c.before).2.touched := by
  rw [touched, Launch.conclude_of_report h]

/-- A run that does not decide a path leaves its entry. -/
theorem get?_after_of_not_decides (h : ¬ c.Decides p) : c.after.get? p = c.before.get? p := by
  cases hreport : c.execution.report with
  | error failure => rw [after, Launch.conclude_of_failure hreport]
  | ok report =>
    rw [after_eq hreport]
    exact Launch.get?_apply_of_not_covers fun hcovers => h ⟨report, hreport, hcovers⟩

/-- After a run that decides a path, the path has an entry if the run reports something
for it, or overlooks it. -/
theorem contains_after_iff (h : c.Decides p) :
    c.after.contains p = true ↔ c.Reports p ∨ c.Overlooks p := by
  obtain ⟨report, hreport, hcovers⟩ := h
  have hreports : c.Reports p ↔ c.launch.mapping.Reports report p := by
    simp [Reports, hreport]
  have hoverlooks : c.Overlooks p ↔ c.launch.Overlooks report c.before p := by
    simp [Overlooks, Launch.Overlooks, IsCleanOn, hreport]
  rw [hreports, hoverlooks, after_eq hreport, Store.contains_eq_isSome_get?]
  -- An overlooked path keeps the entry it had; any other has what the report says.
  by_cases hseen : c.launch.Overlooks report c.before p
  · rw [Launch.get?_apply_of_overlooks hseen, ← Store.contains_eq_isSome_get?]
    simp [hseen, hseen.2.2]
  · rw [Launch.get?_apply_of_covers hcovers hseen, Mapping.entryOf_isSome_iff]
    simp [hseen]

/-- A run on a file without findings lists the file if it saw an entry and there is one
to clear. -/
theorem exists_mem_touched_iff_of_isCleanOn (h : c.IsCleanOn p) :
    (∃ q ∈ c.touched, Path.Same q p) ↔ c.launch.hadEntry = true ∧ c.before.contains p = true := by
  obtain ⟨report, hreport, ⟨target, htarget, hsame⟩, hclean⟩ := h
  rw [touched_eq hreport, ← c.before.contains_congr hsame]
  by_cases hentry : c.launch.hadEntry = true ∧ c.before.contains target = true
  · simp [(Launch.apply_of_cleared htarget hclean hentry).2, hentry, hsame]
  · simp [(Launch.apply_of_kept htarget hclean hentry).2, hentry]

end Conclusion

namespace Machine

variable {m : Machine} {c : Conclusion} {p : Path} {event : Event}

/-! ## The conclusions of a schedule -/

/-- The conclusion that an event is, if it is one. -/
def conclusion? (m : Machine) : Event → Option Conclusion
  | .finish id execution => (m.executing? id).map fun launch => ⟨id, launch, execution, m.store⟩
  | _ => none

/-- The conclusions of a schedule, in the order in which they happen. -/
def concluded (m : Machine) : List Event → List Conclusion
  | [] => []
  | event :: events => (m.conclusion? event).toList ++ (m.step event).concluded events

/-- A machine without diagnostics and without runs. -/
def fresh (root : Path) (settings : Settings) : Machine := { root, settings }

theorem concluded_concat (m : Machine) (events : List Event) (event : Event) :
    m.concluded (events ++ [event]) =
      m.concluded events ++ ((m.afterAll events).conclusion? event).toList := by
  induction events generalizing m with
  | nil => simp [concluded, afterAll]
  | cons first events ih =>
    rw [List.cons_append, concluded, concluded, ih, List.append_assoc]
    rfl

/-- A conclusion meets the store and leaves what it makes of it. -/
theorem store_step_of_conclusion (h : m.conclusion? event = some c) :
    c.before = m.store ∧ (m.step event).store = c.after := by
  cases event with
  | finish id execution =>
    obtain ⟨launch, hlaunch, rfl⟩ := Option.map_eq_some_iff.mp h
    exact ⟨rfl, by rw [step, finish, hlaunch]; rfl⟩
  | _ => cases h

/-- Events that are no conclusions leave the store. -/
theorem store_step_of_none (h : m.conclusion? event = none) : (m.step event).store = m.store := by
  cases event with
  | start id target =>
    rw [step]
    split_ifs <;> rfl
  | finish id execution => rw [step, finish, Option.map_eq_none_iff.mp h]
  | _ => rfl

/-- What a conclusion applies was fixed in the schedule, when the run got its turn. -/
theorem launchedAt_of_mem_concluded (hinitial : ∀ r ∈ m.runs, r.launch = none)
    {events : List Event} (h : c ∈ m.concluded events) : m.LaunchedAt events c.id c.launch := by
  induction events using List.reverseRecOn with
  | nil => cases h
  | append_singleton events event ih =>
    rw [concluded_concat, List.mem_append, Option.mem_toList] at h
    rcases h with h | h
    · exact (ih h).concat event
    · cases event with
      | finish id execution =>
        obtain ⟨launch, hlaunch, rfl⟩ := Option.map_eq_some_iff.mp h
        obtain ⟨r, hr, rfl, hfixed⟩ := executing?_eq_some hlaunch
        exact (launchedAt_of_mem hinitial hr hfixed).concat _
      | _ => cases h

/-! ## Entries -/

/-- The entry of a path is the one that the last conclusion left that decided it. -/
theorem get?_afterAll (m : Machine) (events : List Event) (p : Path) :
    (∃ last, IsLast (Conclusion.Decides p) (m.concluded events) last ∧
        (m.afterAll events).store.get? p = last.after.get? p) ∨
      (∀ c ∈ m.concluded events, ¬ c.Decides p) ∧
        (m.afterAll events).store.get? p = m.store.get? p := by
  induction events using List.reverseRecOn with
  | nil => exact .inr ⟨by simp [concluded], rfl⟩
  | append_singleton events event ih =>
    rw [afterAll_concat, concluded_concat]
    -- Only conclusions write, and each writes on top of what it met.
    cases hconclusion : (m.afterAll events).conclusion? event with
    | none => simpa [store_step_of_none hconclusion] using ih
    | some c =>
      obtain ⟨hbefore, hafter⟩ := store_step_of_conclusion hconclusion
      rw [hafter, Option.toList_some]
      by_cases hdecides : c.Decides p
      · exact .inl ⟨c, isLast_concat hdecides, rfl⟩
      · rw [Conclusion.get?_after_of_not_decides hdecides, hbefore]
        rcases ih with ⟨last, hlast, hentry⟩ | ⟨hnone, hentry⟩
        · exact .inl ⟨last, hlast.concat hdecides, hentry⟩
        · exact .inr ⟨forall_not_concat hnone hdecides, hentry⟩

/-- After any schedule, the paths with an entry are those that the last conclusion that
decided them reported something for or overlooked. -/
theorem contains_afterAll_iff (root : Path) (settings : Settings) (events : List Event) (p : Path) :
    ((fresh root settings).afterAll events).store.contains p = true ↔
      ∃ last, IsLast (Conclusion.Decides p) ((fresh root settings).concluded events) last ∧
        (last.Reports p ∨ last.Overlooks p) := by
  rw [Store.contains_eq_isSome_get?]
  rcases (fresh root settings).get?_afterAll events p with ⟨last, hlast, hentry⟩ | ⟨hnone, hentry⟩
  · rw [hentry, ← Store.contains_eq_isSome_get?, Conclusion.contains_after_iff hlast.holds]
    refine ⟨fun h => ⟨last, hlast, h⟩, ?_⟩
    rintro ⟨other, hother, h⟩
    exact hlast.unique hother ▸ h
  · rw [hentry]
    refine ⟨fun h => by simp [fresh, Store.get?] at h, ?_⟩
    rintro ⟨other, hother, -⟩
    exact absurd hother.holds (hnone other hother.mem)

/-- After any schedule of runs that starts without diagnostics, a path has an entry
exactly when the last run that decided it reported something for it, unless and only
unless that run overlooked the path. Likewise a run on a file that ends without findings
leaves the file without an entry, and lists it if it had one, unless and only unless it
overlooks the file. An overlooked file had no entry when the run got its turn. -/
theorem contains_iff_reports_iff (root : Path) (settings : Settings) (events : List Event)
    (p : Path) :
    ((((fresh root settings).afterAll events).store.contains p = true ↔
        ∃ last, IsLast (Conclusion.Decides p) ((fresh root settings).concluded events) last ∧
          last.Reports p) ↔
      ¬ ∃ last, IsLast (Conclusion.Decides p) ((fresh root settings).concluded events) last ∧
          last.Overlooks p) ∧
    (∀ c ∈ (fresh root settings).concluded events, c.IsCleanOn p →
      (c.after.contains p = false ↔ ¬ c.Overlooks p) ∧
      ((c.before.contains p = true → ∃ q ∈ c.touched, Path.Same q p) ↔ ¬ c.Overlooks p)) ∧
    ∀ c ∈ (fresh root settings).concluded events, c.Overlooks p →
      ∃ earlier later, events = earlier ++ .turn c.id :: later ∧
        ((fresh root settings).afterAll earlier).store.contains p = false := by
  refine ⟨?_, fun c _ hclean => ⟨?_, ?_⟩, fun c hc hoverlooks => ?_⟩
  · rw [contains_afterAll_iff]
    -- A run that overlooks a path does not report it, so the two cases exclude each other.
    constructor
    · rintro hiff ⟨last, hlast, hoverlooks⟩
      obtain ⟨other, hother, hreports⟩ := hiff.mp ⟨last, hlast, .inr hoverlooks⟩
      obtain rfl := hlast.unique hother
      exact hoverlooks.1.not_reports hreports
    · intro hseen
      refine ⟨?_, fun ⟨last, hlast, hreports⟩ => ⟨last, hlast, .inl hreports⟩⟩
      rintro ⟨last, hlast, hreports | hoverlooks⟩
      · exact ⟨last, hlast, hreports⟩
      · exact absurd ⟨last, hlast, hoverlooks⟩ hseen
  · have hafter := Conclusion.contains_after_iff hclean.decides
    rw [← Bool.not_eq_true, hafter]
    simp [hclean.not_reports]
  · rw [Conclusion.exists_mem_touched_iff_of_isCleanOn hclean, Conclusion.Overlooks]
    cases c.launch.hadEntry <;> simp [hclean]
  · obtain ⟨earlier, later, target, hevents, hlaunch⟩ :=
      launchedAt_of_mem_concluded (by simp [fresh]) hc
    refine ⟨earlier, later, hevents, ?_⟩
    -- What the run had fixed is what the store said at that moment.
    obtain ⟨⟨report, -, ⟨t, ht, hsame⟩, -⟩, hhad, -⟩ := hoverlooks
    rw [hlaunch] at ht hhad
    simp only [Launch.of] at ht hhad
    rw [ht, Option.any_some, Store.contains_congr _ hsame] at hhad
    exact hhad

/-! ## An entry that is overlooked -/

section Overlooked

/-- A file of a workspace. -/
def sharedFile : Path := .ofString "/p/a.php"

/-- The machine of the workspace. -/
def sharedMachine : Machine := fresh (.ofString "/p") {}

/-- While the file is analysed, a run on the project finds a violation in it. -/
def meanwhile : List Event := [
  .start "file" (some sharedFile), .turn "file", .start "project" none, .turn "project",
  .finish "project" (.ok {
    code := some 1
    stdout := "\x7b\"files\":\x7b\"/p/a.php\":\x7b\"messages\":[\x7b\"message\":\"m\"\x7d]\x7d\x7d\x7d"
    stderr := "" })]

/-- The process of the file's own run ends without findings. -/
def cleanEnd : Execution := .ok { code := some 0, stdout := "\x7b\"files\":[]\x7d", stderr := "" }

/-- The project run ends first, then the file's own run. -/
def overlookingSchedule : List Event := meanwhile ++ [.finish "file" cleanEnd]

/-- The file keeps its entry although the last run that decided it reported nothing for
it. That run ended without findings when the file had an entry, which it neither cleared
nor listed. -/
theorem overlooked_entry :
    ¬ ((sharedMachine.afterAll overlookingSchedule).store.contains sharedFile = true ↔
        ∃ last, IsLast (Conclusion.Decides sharedFile)
          (sharedMachine.concluded overlookingSchedule) last ∧ last.Reports sharedFile) ∧
      ∃ c ∈ sharedMachine.concluded overlookingSchedule, c.IsCleanOn sharedFile ∧
        c.before.contains sharedFile = true ∧ c.after.contains sharedFile = true ∧
          c.touched = [] := by
  -- The run on the file was launched before there was an entry, and there is one now.
  have hlaunch : (sharedMachine.afterAll meanwhile).executing? "file" =
      some (.of (.ofString "/p") {} .empty (some sharedFile)) := by decide +kernel
  have hcontains : (sharedMachine.afterAll meanwhile).store.contains sharedFile = true := by
    decide +kernel
  have hreport : cleanEnd.report = .ok {} := Execution.report_eq_ok_of_toOption (by decide +kernel)
  obtain ⟨c, hconclusion, hexecution, htarget, hhad⟩ :
      ∃ c, (sharedMachine.afterAll meanwhile).conclusion? (.finish "file" cleanEnd) = some c ∧
        c.execution.report = .ok {} ∧ c.launch.target = some sharedFile.normalize ∧
        c.launch.hadEntry = false := by
    rw [conclusion?, hlaunch]
    exact ⟨_, rfl, hreport, by simp [Launch.of], by simp [Launch.of]⟩
  obtain ⟨hbefore, hafter⟩ := store_step_of_conclusion hconclusion
  rw [← hbefore] at hcontains
  have hclean : c.IsCleanOn sharedFile :=
    ⟨{}, hexecution, ⟨_, htarget, sharedFile.normalize_same⟩, rfl⟩
  have hkept : c.after.contains sharedFile = true :=
    (Conclusion.contains_after_iff hclean.decides).mpr (.inr ⟨hclean, hhad, hcontains⟩)
  rw [overlookingSchedule, afterAll_concat, hafter, concluded_concat, hconclusion,
    Option.toList_some]
  refine ⟨fun hiff => ?_, c, by simp, hclean, hcontains, hkept, ?_⟩
  · obtain ⟨last, hlast, hreports⟩ := hiff.mp hkept
    obtain rfl := hlast.unique (isLast_concat hclean.decides)
    exact hclean.not_reports hreports
  · rw [Conclusion.touched_eq hexecution]
    exact (Launch.apply_of_kept htarget rfl (by simp [hhad])).2

end Overlooked

end Machine

end DiagnosticRelay
