import DiagnosticRelay.Proofs.Run.Sequence
import DiagnosticRelay.Proofs.Run.Straddling

/-!
# Settings that are read once

Settings may be replaced at any time, also while runs are queued and while their processes
are executed. A run reads them when it gets its turn and never again: its command line and
the way its report is mapped come from one and the same settings, those that were put in
force last before the turn. Of the settings that were in force while it was queued it sees
nothing, and replacing them after the turn changes nothing about the run.

## Main definitions

* `Machine.inForce`: the settings in force after a schedule.
* `Machine.IsSnapshot`: a run was launched at a turn with the settings in force then.
* `Machine.GoesOnAs`: a run is executed as launched and will be concluded as launched.
* `Machine.bearing`: a schedule, of whose settings only those are left that a turn meets.

## Main results

* `exists_isSnapshot`: every run that is executed was launched so.
* `goesOnAs_afterAll`: whatever happens, a run goes on as launched until it ends.
* `eqButSettings_of_bearing_eq`: all that settings matter for is turns.
* `settings_are_read_once`: settings replaced at any moment of any schedule.
-/

namespace DiagnosticRelay.Machine

variable {m other : Machine} {r s : Run} {id : String} {launch : Launch} {event : Event}
  {events later : List Event} {k : Nat}

/-! ## Settings in force -/

/-- The settings that an event puts in force, if it does. -/
def Event.replacement? : Event → Option Settings
  | .configure settings => some settings
  | _ => none

/-- The settings in force after a schedule: those put in force last, or else the first. -/
def inForce (initial : Settings) (events : List Event) : Settings :=
  (events.filterMap Event.replacement?).getLast?.getD initial

theorem inForce_concat (initial : Settings) (events : List Event) (event : Event) :
    inForce initial (events ++ [event]) = event.replacement?.getD (inForce initial events) := by
  rw [inForce, inForce, List.filterMap_append]
  cases h : event.replacement? <;> simp [h]

theorem settings_step_eq (m : Machine) (event : Event) :
    (m.step event).settings = event.replacement?.getD m.settings := by
  cases event with
  | configure settings => rfl
  | _ => exact settings_step (by simp)

theorem settings_afterAll (m : Machine) (events : List Event) :
    (m.afterAll events).settings = inForce m.settings events := by
  induction events using List.reverseRecOn with
  | nil => rfl
  | append_singleton events event ih =>
    rw [afterAll_concat, settings_step_eq, ih, inForce_concat]

/-! ## The turn of a run -/

/-- A run that was executed at a moment was launched at a turn before, with the settings in
force right then: they give its command line and its mapping. It has been executed as
launched ever since. -/
structure IsSnapshot (m : Machine) (events : List Event) (id : String) (launch : Launch)
    (turned k : Nat) : Prop where
  turned_lt : turned < k
  turn : events[turned]? = some (.turn id)
  waits : (m.moment events turned).executing? id = none
  executes : ∀ j, turned < j → j ≤ k → (m.moment events j).executing? id = some launch
  launched : ∃ r ∈ (m.moment events turned).runs, r.id = id ∧
    (m.moment events turned).isDue r = true ∧
    launch = .of m.root (inForce m.settings (events.take turned))
      (m.moment events turned).store r.target ∧
    launch.commandLine = (inForce m.settings (events.take turned)).commandLine m.root
      (r.target.map Path.normalize) ∧
    launch.mapping = ⟨m.root, (inForce m.settings (events.take turned)).dockerVolumePath⟩

/-- At its turn a run is launched for what it was started for. -/
theorem IsSound.launch_of_turn (h : m.IsSound) (hwaits : m.executing? id = none)
    (hexecuting : (m.step (.turn id)).executing? id = some launch) :
    ∃ r ∈ m.runs, r.id = id ∧ m.isDue r = true ∧ launch = m.launch r := by
  obtain ⟨r, hr, rfl, hlaunch⟩ := executing?_eq_some hexecuting
  rcases mem_runs_step hr with hr | ⟨_, _, hstart, -, -⟩ | ⟨before, hbefore, -, hdue, rfl⟩
  · rw [h.executing?_eq hr, hlaunch] at hwaits
    cases hwaits
  · cases hstart
  · exact ⟨before, hbefore, rfl, hdue, (Option.some.inj hlaunch).symm⟩

theorem exists_isSnapshot (hruns : m.runs = [])
    (h : (m.moment events k).executing? id = some launch) :
    ∃ turned, m.IsSnapshot events id launch turned k := by
  obtain ⟨turned, hlt, hturn, hwaits, hexecutes⟩ := exists_turned hruns h
  have hnext := hexecutes (turned + 1) (Nat.lt_succ_self _) hlt
  rw [moment_succ hturn] at hnext
  obtain ⟨r, hr, hid, hdue, hlaunch⟩ := (isSound_moment hruns turned).launch_of_turn hwaits hnext
  have heq : launch = .of m.root (inForce m.settings (events.take turned))
      (m.moment events turned).store r.target := by
    rw [hlaunch, Machine.launch, moment, root_afterAll, settings_afterAll]
  exact ⟨turned, hlt, hturn, hwaits, hexecutes, r, hr, hid, hdue, heq,
    by rw [heq]; rfl, by rw [heq]; rfl⟩

/-! ## From the turn to the end -/

/-- An event is the end of a run. -/
def Event.Ends (id : String) : Event → Prop
  | .cancel other => other = id
  | .finish other _ => other = id
  | _ => False

/-- A run is executed as launched. When its process ends, its summary or failure and what it
makes of the store are those of the launch. -/
structure GoesOnAs (m : Machine) (id : String) (launch : Launch) : Prop where
  executing : m.executing? id = some launch
  outcome : ∀ execution,
    (m.finish id execution).2 = some ⟨id, (launch.conclude execution m.store).2⟩
  store : ∀ execution,
    (m.finish id execution).1.store = (launch.conclude execution m.store).1

theorem goesOnAs_of_executing? (h : m.executing? id = some launch) : m.GoesOnAs id launch where
  executing := h
  outcome execution := by rw [finish, h]
  store execution := by rw [finish, h]

theorem executing?_step_of_not_ends (hsound : m.IsSound) (h : m.executing? id = some launch)
    (hends : ¬ event.Ends id) : (m.step event).executing? id = some launch := by
  obtain ⟨r, hr, rfl, hlaunch⟩ := executing?_eq_some h
  have hstays : m.verdict? r.id event = none := by
    cases event with
    | cancel other => exact if_neg hends
    | finish other execution => exact if_neg fun h => hends h.1
    | _ => rfl
  obtain ⟨s, hs, hid⟩ := exists_mem_runs_step hr hstays
  rw [← hid, (hsound.step event).executing?_eq hs]
  rcases mem_runs_step hs with hbefore | ⟨_, _, -, hfresh, rfl⟩ | ⟨before, hbefore, -, hdue, rfl⟩
  · rw [hsound.eq_of_id_eq hbefore hr hid, hlaunch]
  · exact absurd (List.mem_map.mpr ⟨r, hr, hid.symm⟩) hfresh
  · -- A run that is executed is not launched again.
    rw [hsound.eq_of_id_eq hbefore hr hid, isDue_iff, hlaunch] at hdue
    cases hdue.1

theorem executing?_afterAll_of_not_ends (hsound : m.IsSound) (h : m.executing? id = some launch)
    (hends : ∀ event ∈ later, ¬ event.Ends id) : (m.afterAll later).executing? id = some launch := by
  induction later using List.reverseRecOn with
  | nil => exact h
  | append_singleton later event ih =>
    rw [afterAll_concat]
    exact executing?_step_of_not_ends (isSound_afterAll hsound later)
      (ih fun e he => hends e (List.mem_append_left _ he)) (hends event (by simp))

/-! ## Schedules with other settings -/

/-- Two machines differ in nothing but the settings in force. -/
structure EqButSettings (m other : Machine) : Prop where
  root : m.root = other.root
  store : m.store = other.store
  runs : m.runs = other.runs

theorem EqButSettings.eq_configure (h : m.EqButSettings other) :
    other = m.configure other.settings := by
  obtain ⟨hroot, hstore, hruns⟩ := h
  cases other
  simp_all [configure]

theorem eqButSettings_configure (m : Machine) (settings : Settings) :
    m.EqButSettings (m.configure settings) := ⟨rfl, rfl, rfl⟩

theorem EqButSettings.symm (h : m.EqButSettings other) : other.EqButSettings m :=
  ⟨h.root.symm, h.store.symm, h.runs.symm⟩

theorem EqButSettings.trans {third : Machine} (h : m.EqButSettings other)
    (h' : other.EqButSettings third) : m.EqButSettings third :=
  ⟨h.root.trans h'.root, h.store.trans h'.store, h.runs.trans h'.runs⟩

/-- Settings matter for turns only. -/
theorem EqButSettings.step (h : m.EqButSettings other)
    (hturn : ∀ id, event = .turn id → m.settings = other.settings) :
    (m.step event).EqButSettings (other.step event) := by
  rw [h.eq_configure]
  cases event with
  | start id target =>
    simp only [Machine.step]
    change (if id ∈ m.runs.map (·.id) then m else m.start id target).EqButSettings
      (if id ∈ m.runs.map (·.id) then m.configure other.settings
        else (m.configure other.settings).start id target)
    split_ifs <;> exact ⟨rfl, rfl, rfl⟩
  | cancel id => exact ⟨rfl, rfl, rfl⟩
  | configure settings => exact ⟨rfl, rfl, rfl⟩
  | turn id =>
    rw [← hturn id rfl]
    exact ⟨rfl, rfl, rfl⟩
  | finish id execution =>
    have hsame : (m.configure other.settings).executing? id = m.executing? id := rfl
    rw [Machine.step, Machine.step, finish, finish, hsame]
    cases m.executing? id <;> exact ⟨rfl, rfl, rfl⟩

/-- The events of a schedule without the replacements of settings, and with every turn the
settings that are in force. -/
def bearing (settings : Settings) : List Event → List (Event × Option Settings)
  | [] => []
  | .configure replacement :: events => bearing replacement events
  | .turn id :: events => (.turn id, some settings) :: bearing settings events
  | event :: events => (event, none) :: bearing settings events

/-- A schedule whose turns bring the settings that they meet. -/
def replay (m : Machine) (events : List (Event × Option Settings)) : Machine :=
  events.foldl (fun m e => (m.configure (e.2.getD m.settings)).step e.1) m

theorem eqButSettings_replay (h : m.EqButSettings other) (events : List Event) :
    (m.afterAll events).EqButSettings (other.replay (bearing m.settings events)) := by
  induction events generalizing m other with
  | nil => exact h
  | cons event events ih =>
    change ((m.step event).afterAll events).EqButSettings _
    have hsettings := m.settings_step_eq event
    have hquiet (hne : ∀ id, event ≠ .turn id) : (m.step event).EqButSettings (other.step event) :=
      h.step fun id heq => absurd heq (hne id)
    cases event with
    | configure settings => exact ih ((eqButSettings_configure m settings).symm.trans h)
    | turn id =>
      have hstep : (m.step (.turn id)).EqButSettings
          ((other.configure m.settings).step (.turn id)) :=
        (h.trans (eqButSettings_configure other m.settings)).step fun _ _ => rfl
      have hrest := ih hstep
      rw [hsettings] at hrest
      exact hrest
    | start id target | cancel id | finish id execution =>
      have hrest := ih (hquiet (by simp))
      rw [hsettings] at hrest
      exact hrest

/-- Where every turn meets the same settings, the runs and the store are the same. -/
theorem eqButSettings_of_bearing_eq (h : m.EqButSettings other) {xs ys : List Event}
    (hbearing : bearing m.settings xs = bearing other.settings ys) :
    (m.afterAll xs).EqButSettings (other.afterAll ys) := by
  have hleft := eqButSettings_replay (EqButSettings.mk rfl rfl rfl : m.EqButSettings m) xs
  have hright := eqButSettings_replay h.symm ys
  rw [← hbearing] at hright
  exact hleft.trans hright.symm

/-! ## One snapshot for every run -/

/-- The events of a schedule without the replacements of settings. -/
def withoutReplacements (events : List Event) : List Event :=
  events.filter fun event => event.replacement?.isNone

theorem not_ends_of_withoutReplacements {others : List Event}
    (h : withoutReplacements later = withoutReplacements others)
    (hends : ∀ event ∈ later, ¬ event.Ends id) : ∀ event ∈ others, ¬ event.Ends id := by
  intro event hevent hend
  have hkept : event ∈ withoutReplacements others := by
    refine List.mem_filter.mpr ⟨hevent, ?_⟩
    cases event <;> first | rfl | exact hend.elim
  rw [← h] at hkept
  exact hends event (List.mem_of_mem_filter hkept) hend

/-- Every run that is executed at a moment of a schedule was launched when it got its turn,
with the settings that were in force then, which give its command line and its mapping. It
goes on as launched through any two courses of events that do not end it and differ in
replacements of settings only: its process has the same command line and comes to the same
outcome and the same change of the same store. If also the turns of other runs in the two
courses meet the same settings, then the stores are the same. And if all turns of two
schedules do, wherever else settings are replaced, then all runs and the store are. -/
theorem settings_are_read_once (root : Path) (settings : Settings) (store : Store)
    (events : List Event) :
    let m : Machine := { root, settings, store }
    (∀ k id launch, (m.moment events k).executing? id = some launch →
      ∃ turned, m.IsSnapshot events id launch turned k) ∧
    (∀ id launch, (m.afterAll events).executing? id = some launch →
      ∀ later others, withoutReplacements later = withoutReplacements others →
        (∀ event ∈ later, ¬ event.Ends id) →
        let one := (m.afterAll events).afterAll later
        let other := (m.afterAll events).afterAll others
        one.GoesOnAs id launch ∧ other.GoesOnAs id launch ∧
        (bearing (m.afterAll events).settings later =
            bearing (m.afterAll events).settings others →
          one.EqButSettings other ∧ ∀ execution,
            (one.finish id execution).1.store = (other.finish id execution).1.store ∧
            (one.finish id execution).2 = (other.finish id execution).2)) ∧
    ∀ others, bearing settings events = bearing settings others →
      (m.afterAll events).EqButSettings (m.afterAll others) := by
  intro m
  have hsound : (m.afterAll events).IsSound := isSound_afterAll (isSound_of_runs_nil rfl) events
  refine ⟨fun k id launch h => exists_isSnapshot rfl h, ?_, fun others h => ?_⟩
  · intro id launch hlaunch later others hevents hends one other
    have hone : one.GoesOnAs id launch :=
      goesOnAs_of_executing? (executing?_afterAll_of_not_ends hsound hlaunch hends)
    have hother : other.GoesOnAs id launch :=
      goesOnAs_of_executing? (executing?_afterAll_of_not_ends hsound hlaunch
        (not_ends_of_withoutReplacements hevents hends))
    refine ⟨hone, hother, fun hbearing => ?_⟩
    have hsame : one.EqButSettings other := eqButSettings_of_bearing_eq ⟨rfl, rfl, rfl⟩ hbearing
    refine ⟨hsame, fun execution => ⟨?_, ?_⟩⟩
    · rw [hone.store, hother.store, hsame.store]
    · rw [hone.outcome, hother.outcome, hsame.store]
  · exact eqButSettings_of_bearing_eq ⟨rfl, rfl, rfl⟩ h

section Replaced

/-- While one run is executed and another one on the same file is queued, the command is
replaced twice; after the turn of the second run it is replaced once more. -/
def replacingSchedule : List Event := [
  .start "first" (some sharedFile), .turn "first", .start "second" (some sharedFile),
  .configure { command := "one" }, .configure { command := "two" },
  .finish "first" cleanEnd, .turn "second", .configure { command := "three" }]

/-- The second run sees the second replacement only. -/
theorem settings_are_read_once_replacingSchedule :
    ∃ turned launch,
      sharedMachine.IsSnapshot replacingSchedule "second" launch turned replacingSchedule.length ∧
        launch.commandLine = "php two a.php" := by
  obtain ⟨launch, hlaunch, hcommand⟩ : ∃ launch,
      (sharedMachine.moment replacingSchedule replacingSchedule.length).executing? "second" =
          some launch ∧
        launch.commandLine = "php two a.php" :=
    ⟨.of (.ofString "/p") { command := "two" } {} (some sharedFile), by decide +kernel,
      by decide +kernel⟩
  obtain ⟨turned, hsnapshot⟩ := (settings_are_read_once (.ofString "/p") {} {}
    replacingSchedule).1 replacingSchedule.length "second" launch hlaunch
  exact ⟨turned, launch, hsnapshot, hcommand⟩

end Replaced

end DiagnosticRelay.Machine
