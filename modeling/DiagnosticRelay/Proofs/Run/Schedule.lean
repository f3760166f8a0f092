import DiagnosticRelay.Proofs.Path.NormalForm
import DiagnosticRelay.Proofs.Run.History
import DiagnosticRelay.Proofs.Run.Queue
import DiagnosticRelay.Run.Machine

/-!
# Schedules of runs

What happens to a machine is a list of events, in any order: runs are started and
dropped, settings are replaced, a run whose turn has come is launched, and the
process of a run ends. Whatever the schedule, every run has an id of its own, the
runs that are executed have their turn, and what a launched run fixed was read at
one moment, when its turn came.

## Main definitions

* `Machine.Event`, `Machine.step`, `Machine.afterAll`: schedules.
* `Machine.IsSound`: what holds of runs at every moment.
* `Machine.LaunchedAt`: a launch was made at a moment of a schedule.

## Main results

* `settle_eq_foldl_turn`: settling is the turn of every run.
* `guard_step`: events as requests for turns.
* `isSound_afterAll`, `launchedAt_of_mem`: invariants of schedules.
* `IsSound.eq_of_key_eq`: runs for the same file are not executed together.
* `store_afterAll_alone`: runs that do not overlap go by `Pass.replay`.
-/

namespace DiagnosticRelay.Machine

/-! ## Events -/

/-- What can happen to a machine. -/
inductive Event where
  | start (id : String) (target : Option Path)
  | cancel (id : String)
  | configure (settings : Settings)
  /-- A run is launched, if it has its turn. -/
  | turn (id : String)
  /-- The process of a run ends, and its report is applied. -/
  | finish (id : String) (execution : Execution)

/-- Launches one run, if it has its turn. -/
def turn (m : Machine) (id : String) : Machine :=
  { m with runs := m.runs.map fun r => if r.id = id then m.advance r else r }

/-- A machine after an event. An id that is in use is not given to another run. -/
def step (m : Machine) : Event → Machine
  | .start id target => if id ∈ m.runs.map (·.id) then m else m.start id target
  | .cancel id => m.cancel id
  | .configure settings => m.configure settings
  | .turn id => m.turn id
  | .finish id execution => (m.finish id execution).1

/-- A machine after all events of a schedule. -/
def afterAll (m : Machine) (events : List Event) : Machine := events.foldl step m

variable {m : Machine} {r s : Run} {id : String} {launch : Launch} {event : Event}

theorem afterAll_append (m : Machine) (xs ys : List Event) :
    m.afterAll (xs ++ ys) = (m.afterAll xs).afterAll ys :=
  List.foldl_append

theorem afterAll_concat (m : Machine) (events : List Event) (event : Event) :
    m.afterAll (events ++ [event]) = (m.afterAll events).step event :=
  m.afterAll_append events [event]

/-! ## Launching -/

theorem isExecuting_of_launch (h : r.launch = some launch) : r.isExecuting = true := by
  rw [Run.isExecuting, h, Option.isSome_some]

theorem isDue_iff : m.isDue r = true ↔ r.launch = none ∧ m.guard.holder? r.key = some r.id := by
  simp [isDue, Run.isExecuting, Guard.hasTurn]

@[simp] theorem id_advance (m : Machine) (r : Run) : (m.advance r).id = r.id := by
  rw [advance]
  split_ifs <;> rfl

@[simp] theorem key_advance (m : Machine) (r : Run) : (m.advance r).key = r.key := by
  rw [advance]
  split_ifs <;> rfl

@[simp] theorem guard_turn (m : Machine) (id : String) : (m.turn id).guard = m.guard := by
  have hrequest (r : Run) : ((if r.id = id then m.advance r else r).id,
      (if r.id = id then m.advance r else r).key) = (r.id, r.key) := by
    split_ifs <;> simp
  simp [guard, turn, hrequest]

theorem advance_turn (m : Machine) (id : String) : (m.turn id).advance = m.advance := by
  funext r
  rw [advance, advance, isDue, isDue, guard_turn]
  rfl

theorem advance_advance (m : Machine) (r : Run) : m.advance (m.advance r) = m.advance r := by
  by_cases h : m.isDue r = true
  · have hdone : m.isDue { r with launch := some (m.launch r) } = false := by
      simp [isDue, Run.isExecuting]
    simp [advance, h, hdone]
  · simp [advance, h]

theorem foldl_turn (m : Machine) (ids : List String) :
    ids.foldl turn m =
      { m with runs := m.runs.map fun r => if r.id ∈ ids then m.advance r else r } := by
  induction ids generalizing m with
  | nil => simp
  | cons id ids ih =>
    rw [List.foldl_cons, ih, advance_turn]
    simp only [turn, List.map_map]
    congr 2
    -- A run that has been launched before its second turn stays as it is.
    funext r
    by_cases hid : r.id = id <;> by_cases hids : r.id ∈ ids <;> simp_all [advance_advance]

/-- Settling is the turn of every run. -/
theorem settle_eq_foldl_turn (m : Machine) : m.settle = (m.runs.map (·.id)).foldl turn m := by
  rw [foldl_turn, settle]
  congr 1
  refine List.map_congr_left fun r hr => ?_
  rw [if_pos (List.mem_map_of_mem hr)]

/-! ## Events as moves of the guard -/

theorem guard_start (m : Machine) (id : String) (target : Option Path) :
    (m.start id target).guard = m.guard.acquire id (.ofTarget (target.map Path.normalize)) := by
  simp [guard, start, Guard.acquire, Run.key]

theorem guard_cancel (m : Machine) (id : String) : (m.cancel id).guard = m.guard.release id := by
  simp [guard, cancel, Guard.release, List.filter_map, Function.comp_def]

theorem guard_finish (m : Machine) (id : String) (execution : Execution) :
    (m.finish id execution).1.guard =
      if (m.executing? id).isSome then m.guard.release id else m.guard := by
  rw [finish, ← guard_cancel]
  cases m.executing? id <;> rfl

/-- What an event is to the guard: a start asks for a turn, a drop and an end take a
request back, and nothing else matters. -/
theorem guard_step (m : Machine) (event : Event) :
    (m.step event).guard = match event with
      | .start id target =>
        if id ∈ m.runs.map (·.id) then m.guard
        else m.guard.acquire id (.ofTarget (target.map Path.normalize))
      | .cancel id => m.guard.release id
      | .configure _ | .turn _ => m.guard
      | .finish id _ => if (m.executing? id).isSome then m.guard.release id else m.guard := by
  cases event with
  | start id target =>
    by_cases hused : id ∈ m.runs.map (·.id) <;> simp only [step, hused, if_true, if_false]
    exact m.guard_start id target
  | cancel id => exact m.guard_cancel id
  | configure settings => rfl
  | turn id => exact m.guard_turn id
  | finish id execution => exact m.guard_finish id execution

/-! ## Runs after an event -/

theorem executing?_eq_some (h : m.executing? id = some launch) :
    ∃ r ∈ m.runs, r.id = id ∧ r.launch = some launch := by
  obtain ⟨r, hr, hlaunch⟩ := Option.bind_eq_some_iff.mp h
  exact ⟨r, List.mem_of_find?_eq_some hr, by simpa using List.find?_some hr, hlaunch⟩

/-- A run after an event was there before, as it is, or is started by the event, or is
launched by it. -/
theorem mem_runs_step (h : r ∈ (m.step event).runs) :
    r ∈ m.runs ∨
      (∃ id target, event = .start id target ∧ id ∉ m.runs.map (·.id) ∧
        r = { id, target := target.map Path.normalize }) ∨
      ∃ before ∈ m.runs, event = .turn before.id ∧ m.isDue before = true ∧
        r = { before with launch := some (m.launch before) } := by
  cases event with
  | start id target =>
    rw [step] at h
    split_ifs at h with hused
    · exact .inl h
    · rcases List.mem_append.mp h with h | h
      · exact .inl h
      · exact .inr (.inl ⟨id, target, rfl, hused, List.mem_singleton.mp h⟩)
  | cancel id => exact .inl (List.mem_of_mem_filter h)
  | configure settings => exact .inl h
  | turn id =>
    obtain ⟨before, hbefore, rfl⟩ := List.mem_map.mp h
    by_cases hid : before.id = id
    · rw [if_pos hid, advance]
      split_ifs with hdue
      · exact .inr (.inr ⟨before, hbefore, by rw [hid], hdue, rfl⟩)
      · exact .inl hbefore
    · rw [if_neg hid]
      exact .inl hbefore
  | finish id execution =>
    change r ∈ (m.finish id execution).1.runs at h
    rw [finish] at h
    split at h
    · exact .inl h
    · exact .inl (List.mem_of_mem_filter h)

/-- A run that has its turn keeps it until it ends. -/
theorem holder?_step (hr : r ∈ (m.step event).runs) (h : m.guard.holder? r.key = some r.id) :
    (m.step event).guard.holder? r.key = some r.id := by
  have of_cancel {id : String} (hr : r ∈ (m.cancel id).runs) :
      (m.guard.release id).holder? r.key = some r.id :=
    Guard.holder?_release h (by simpa using (List.mem_filter.mp hr).2)
  rw [guard_step]
  cases event with
  | start id target =>
    simp only
    split_ifs
    · exact h
    · exact Guard.holder?_acquire h
  | cancel id => exact of_cancel hr
  | configure settings => exact h
  | turn id => exact h
  | finish id execution =>
    simp only [step, finish] at hr ⊢
    cases hlaunch : m.executing? id with
    | none => exact h
    | some launch =>
      rw [hlaunch] at hr
      exact of_cancel hr

/-! ## What holds of runs -/

/-- Every run has an id of its own, and the runs that are executed have their turn. -/
structure IsSound (m : Machine) : Prop where
  proper : m.guard.IsProper
  hasTurn : ∀ r ∈ m.runs, r.isExecuting = true → m.guard.holder? r.key = some r.id

theorem owners_guard (m : Machine) : m.guard.requests.map (·.1) = m.runs.map (·.id) := by
  simp [guard]

theorem IsSound.step (h : m.IsSound) (event : Event) : (m.step event).IsSound where
  proper := by
    rw [guard_step]
    cases event with
    | start id target =>
      simp only
      split_ifs with hused
      · exact h.proper
      · exact h.proper.acquire (by rwa [owners_guard])
    | cancel id => exact h.proper.release id
    | configure settings => exact h.proper
    | turn id => exact h.proper
    | finish id execution =>
      simp only
      split_ifs
      · exact h.proper.release id
      · exact h.proper
  hasTurn r hr hexecuting := by
    -- A run that was executed before keeps its turn; one that is launched now has it.
    rcases mem_runs_step hr with hbefore | ⟨id, target, -, -, rfl⟩ | ⟨before, hbefore, rfl, hdue, rfl⟩
    · exact holder?_step hr (h.hasTurn r hbefore hexecuting)
    · cases hexecuting
    · exact holder?_step hr (isDue_iff.mp hdue).2

theorem isSound_afterAll (h : m.IsSound) (events : List Event) : (m.afterAll events).IsSound :=
  List.foldlRecOn events _ h fun _ hm event _ => hm.step event

theorem isSound_of_runs_nil (h : m.runs = []) : m.IsSound where
  proper := by simp [Guard.IsProper, guard, h]
  hasTurn := by simp [h]

/-- Every run has an id of its own. -/
theorem IsSound.eq_of_id_eq (h : m.IsSound) (hr : r ∈ m.runs) (hs : s ∈ m.runs)
    (hid : r.id = s.id) : r = s := by
  have hproper := h.proper
  rw [Guard.IsProper, owners_guard] at hproper
  exact List.inj_on_of_nodup_map hproper hr hs hid

/-- Runs with the same key are not executed together. -/
theorem IsSound.eq_of_key_eq (h : m.IsSound) (hr : r ∈ m.runs) (hs : s ∈ m.runs)
    (hexecutingr : r.isExecuting = true) (hexecutings : s.isExecuting = true)
    (hkey : r.key = s.key) : r = s := by
  -- Both hold the key, and a key has one holder.
  have hid : r.id = s.id := by
    have hturn := h.hasTurn r hr hexecutingr
    rw [hkey, h.hasTurn s hs hexecutings] at hturn
    exact (Option.some.inj hturn).symm
  exact h.eq_of_id_eq hr hs hid

/-! ## What launches were made of -/

theorem root_step (m : Machine) (event : Event) : (m.step event).root = m.root := by
  cases event with
  | start id target =>
    rw [step]
    split_ifs <;> rfl
  | finish id execution =>
    simp only [step, finish]
    split <;> rfl
  | _ => rfl

theorem root_afterAll (m : Machine) (events : List Event) : (m.afterAll events).root = m.root := by
  induction events using List.reverseRecOn with
  | nil => rfl
  | append_singleton events event ih => rw [afterAll_concat, root_step, ih]

/-- A launch was made in a schedule when the turn of a run came, of the settings and the
store of that moment. -/
def LaunchedAt (m : Machine) (events : List Event) (id : String) (launch : Launch) : Prop :=
  ∃ earlier later target, events = earlier ++ .turn id :: later ∧
    launch = .of m.root (m.afterAll earlier).settings (m.afterAll earlier).store target

theorem LaunchedAt.concat {events : List Event} (h : m.LaunchedAt events id launch)
    (event : Event) : m.LaunchedAt (events ++ [event]) id launch := by
  obtain ⟨earlier, later, target, rfl, hlaunch⟩ := h
  exact ⟨earlier, later ++ [event], target, by simp, hlaunch⟩

/-- The runs that are executed were launched in the schedule. -/
theorem launchedAt_of_mem (hinitial : ∀ r ∈ m.runs, r.launch = none) {events : List Event}
    (hr : r ∈ (m.afterAll events).runs) (hlaunch : r.launch = some launch) :
    m.LaunchedAt events r.id launch := by
  induction events using List.reverseRecOn generalizing r with
  | nil => cases (hinitial r hr).symm.trans hlaunch
  | append_singleton events event ih =>
    rw [afterAll_concat] at hr
    rcases mem_runs_step hr with hbefore | ⟨id, target, -, -, rfl⟩ | ⟨before, -, rfl, -, rfl⟩
    · exact (ih hbefore hlaunch).concat event
    · cases hlaunch
    · refine ⟨events, [], before.target, rfl, ?_⟩
      rw [← m.root_afterAll events]
      exact (Option.some.inj hlaunch).symm

/-! ## Runs that do not overlap -/

/-- The events of a run that meets no other. -/
def eventsAlone (id : String) (pass : Pass) : List Event :=
  [.configure pass.settings, .start id pass.target, .turn id, .finish id pass.execution]

theorem launch_of_normalize (root : Path) (settings : Settings) (store : Store)
    (target : Option Path) :
    Launch.of root settings store (target.map Path.normalize) =
      Launch.of root settings store target := by
  cases target <;> simp [Launch.of]

/-- A run that meets no other goes from its turn to its end at once. -/
theorem afterAll_eventsAlone (h : m.runs = []) (id : String) (pass : Pass) :
    m.afterAll (eventsAlone id pass) =
      { m with settings := pass.settings, store := Pass.after m.root m.store pass } := by
  -- Nobody else asks, so the run is launched at its turn.
  have hturn : (m.configure pass.settings |>.start id pass.target |>.turn id).runs =
      [{ id, target := pass.target.map Path.normalize,
         launch := some (.of m.root pass.settings m.store pass.target) }] := by
    simp [configure, start, turn, h, advance, isDue, Run.isExecuting, Guard.hasTurn,
      Guard.holder?, guard, launch, launch_of_normalize]
  simp only [afterAll, eventsAlone, List.foldl_cons, List.foldl_nil, step]
  have hfresh : id ∉ (m.configure pass.settings).runs.map (·.id) := by simp [configure, h]
  rw [if_neg hfresh, finish, executing?, hturn]
  simp [cancel, hturn, h]
  exact ⟨rfl, rfl, rfl⟩

/-- Runs that do not overlap leave the store of their history. -/
theorem store_afterAll_alone (h : m.runs = []) (id : String) (passes : List Pass) :
    (m.afterAll (passes.flatMap (eventsAlone id))).store = Pass.replay m.root m.store passes := by
  induction passes generalizing m with
  | nil => rfl
  | cons pass passes ih =>
    rw [List.flatMap_cons, afterAll, List.foldl_append]
    have hpass := m.afterAll_eventsAlone h id pass
    rw [afterAll] at hpass
    rw [hpass]
    exact ih h

end DiagnosticRelay.Machine
