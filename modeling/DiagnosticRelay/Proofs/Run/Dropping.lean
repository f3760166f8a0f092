import DiagnosticRelay.Proofs.Run.Failure
import DiagnosticRelay.Proofs.Run.Straddling
import DiagnosticRelay.Proofs.Run.Turns
import Mathlib.Data.List.Find

/-!
# Runs that are dropped

A run may be dropped at any time. If it has its turn, the turn goes to the one that waits
next for the same files; if it waits, the others move up behind it. Nothing else changes,
and nothing that becomes of its process later matters.

A run that is dropped while it is queued might as well never have been started. Waiting
for a turn is nothing to those that wait in front, and those behind it are held up by the
one that has the turn all the same. So all other runs are launched at the same events with
the same command lines, they end alike, and the store is the same after every event.

## Main definitions

* `Machine.Shown`, `Machine.log`: what the events of a schedule show, with the stores.
* `Machine.IsDropped`: a run goes, and nothing else changes but whose turn it is.
* `Machine.IsQueued`: a run has been started and has not been launched.
* `Machine.IsTimely`: a schedule gives turns only to runs that have them.

## Main results

* `isDropped_cancel`: what a dropped run leaves.
* `step_cancel`: an event without a queued run.
* `log_cancel`: a schedule without a run that is queued to its end.
* `dropping_is_clean`: dropped runs at any moment of any schedule.
-/

namespace DiagnosticRelay

namespace Guard

variable {α : Type} [DecidableEq α] {g : Guard α} {owner : α} {key : RunKey}

theorem mem_waiting_iff_exists_request :
    owner ∈ g.waiting ↔ ∃ key, (owner, key) ∈ g.requests ∧ g.holder? key ≠ some owner := by
  simp [waiting, hasTurn]

/-- Who waits has no turn on any key. -/
theorem IsProper.holder?_ne_of_mem_waiting (h : g.IsProper) (hwaits : owner ∈ g.waiting)
    (key : RunKey) : g.holder? key ≠ some owner := by
  obtain ⟨k, hrequest, hk⟩ := mem_waiting_iff_exists_request.mp hwaits
  intro hkey
  have hsame : key = k := h.key_unique (mem_queue_of_holder? hkey) (mem_queue_iff.mpr hrequest)
  exact hk (hsame ▸ hkey)

/-- The turns stay when one takes back its request that has none. -/
theorem holder?_release_of_ne (h : g.holder? key ≠ some owner) :
    (g.release owner).holder? key = g.holder? key := by
  cases hholder : g.holder? key with
  | none =>
    rw [holder?_eq_head?, List.head?_eq_none_iff] at hholder
    rw [holder?_eq_head?, queue_release, hholder]
    rfl
  | some other =>
    exact holder?_release hholder fun heq => h (heq ▸ hholder)

end Guard

namespace Machine

variable {m after : Machine} {r s : Run} {id : String} {event : Event} {events : List Event}

/-! ## What is seen of a schedule -/

/-- What an event shows to the outside. -/
inductive Shown where
  /-- The process of a run is started with a command line in a directory. -/
  | started (id commandLine : String) (directory : Path)
  /-- A run ends, with its summary or its failure. -/
  | ended (run : Ended)

/-- What an event shows, if it shows anything. -/
def shown? (m : Machine) : Event → Option Shown
  | .turn id => (m.due.find? fun d => d.1.id = id).map fun d =>
      .started id d.2.commandLine d.2.root
  | .finish id execution => (m.finish id execution).2.map .ended
  | _ => none

theorem shown?_turn (m : Machine) (id : String) : m.shown? (.turn id) =
    (m.runs.find? fun r => m.isDue r && r.id = id).map fun r =>
      .started id (m.launch r).commandLine (m.launch r).root := by
  rw [shown?, due, List.find?_map, List.find?_filter]
  simp [Function.comp_def]

/-- For every event of a schedule, what it shows and the store after it. -/
def log (m : Machine) : List Event → List (Option Shown × Store)
  | [] => []
  | event :: events => (m.shown? event, (m.step event).store) :: (m.step event).log events

theorem log_append (m : Machine) (xs ys : List Event) :
    m.log (xs ++ ys) = m.log xs ++ (m.afterAll xs).log ys := by
  induction xs generalizing m with
  | nil => rfl
  | cons event xs ih => exact congrArg (_ :: ·) (ih (m.step event))

/-! ## What a dropped run leaves -/

/-- A run is dropped. The store, the settings and the other runs are as they were. Of the
locks only the one of its key changes: it goes to the first that waits if the run had it,
and otherwise the run no longer waits for it. The next runs to be launched are those that
were due, and in the first case also the one that waited next. -/
structure IsDropped (m after : Machine) (r : Run) : Prop where
  root : after.root = m.root
  settings : after.settings = m.settings
  store : after.store = m.store
  runs : after.runs = m.runs.filter fun s => s.id ≠ r.id
  lock : ∀ key, after.guard.lock key =
    if key = r.key then
      if m.guard.holder? key = some r.id then (m.guard.lock key).release
      else (m.guard.lock key).withdraw r.id
    else m.guard.lock key
  turns : after.settle.runs = after.runs.map fun s =>
    if m.guard.holder? r.key = some r.id ∧ (m.guard.waitingOn r.key).head? = some s.id then
      { s with launch := some (m.launch s) }
    else m.advance s

theorem mem_requests_iff {key : RunKey} :
    (id, key) ∈ m.guard.requests ↔ ∃ r ∈ m.runs, r.id = id ∧ r.key = key := by
  simp [guard]

theorem mem_requests (h : r ∈ m.runs) : (r.id, r.key) ∈ m.guard.requests :=
  mem_requests_iff.mpr ⟨r, h, rfl, rfl⟩

/-- Where a run has no turn, the turns of the others stay when it goes. -/
theorem isDue_cancel (h : m.guard.holder? r.key ≠ some id) : (m.cancel id).isDue r = m.isDue r := by
  rw [isDue, isDue, guard_cancel, Guard.hasTurn, Guard.hasTurn, Guard.holder?_release_of_ne h]

theorem advance_cancel (h : m.guard.holder? r.key ≠ some id) :
    (m.cancel id).advance r = m.advance r := by
  rw [advance, advance, isDue_cancel h]
  rfl

theorem isDropped_cancel (hsound : m.IsSound) (hr : r ∈ m.runs) :
    m.IsDropped (m.cancel r.id) r := by
  by_cases hholder : m.guard.holder? r.key = some r.id
  · -- The lock goes to the next one, as after a failure.
    have hgone := goesWithoutTrace_cancel hsound hholder
    refine ⟨rfl, rfl, rfl, rfl, fun key => ?_, ?_⟩
    · rw [hgone.lock]
      split_ifs with hkey hother
      · rfl
      · exact absurd (hkey ▸ hholder) hother
      · rfl
    · simpa only [hholder, true_and] using hgone.turns
  · have hwaits : r.id ∈ m.guard.waiting :=
      Guard.mem_waiting_iff_exists_request.mpr ⟨r.key, mem_requests hr, hholder⟩
    refine ⟨rfl, rfl, rfl, rfl, fun key => ?_, ?_⟩
    · -- A run stands in the queue of its key and in no other.
      obtain ⟨k, hk⟩ := Guard.mem_waiting_iff.mp hwaits
      obtain rfl : k = r.key := hsound.proper.key_unique
        (hsound.proper.mem_queue_of_mem_waitingOn hk) (Guard.mem_queue_iff.mpr (mem_requests hr))
      rw [guard_cancel, hsound.proper.lock_withdraw hk]
      split_ifs with hkey hother
      · exact absurd (hkey ▸ hother) hholder
      · rfl
      · rfl
    · simp only [hholder, false_and, if_false]
      refine List.map_congr_left fun s _ => advance_cancel ?_
      exact hsound.proper.holder?_ne_of_mem_waiting hwaits s.key

/-! ## After a run has been dropped -/

/-- An event starts a run under an id. -/
def Event.Starts (id : String) : Event → Prop
  | .start other _ => other = id
  | _ => False

/-- Nobody but a new run takes an id that is free. -/
theorem mem_ids_of_step (h : id ∈ (m.step event).runs.map (·.id))
    (hstart : ¬ event.Starts id) : id ∈ m.runs.map (·.id) := by
  obtain ⟨r, hr, rfl⟩ := List.mem_map.mp h
  rcases mem_runs_step hr with hr | ⟨_, target, rfl, -, rfl⟩ | ⟨before, hbefore, -, -, rfl⟩
  · exact List.mem_map_of_mem hr
  · exact absurd rfl hstart
  · exact List.mem_map.mpr ⟨before, hbefore, rfl⟩

theorem notMem_ids_afterAll (h : id ∉ m.runs.map (·.id))
    (hstart : ∀ event ∈ events, ¬ event.Starts id) :
    id ∉ (m.afterAll events).runs.map (·.id) := by
  induction events generalizing m with
  | nil => exact h
  | cons event events ih =>
    obtain ⟨hevent, hevents⟩ := List.forall_mem_cons.mp hstart
    exact ih (fun hmem => h (mem_ids_of_step hmem hevent)) hevents

theorem notMem_ids_cancel (m : Machine) (id : String) : id ∉ (m.cancel id).runs.map (·.id) := by
  simp [cancel]

theorem executing?_of_notMem (h : id ∉ m.runs.map (·.id)) : m.executing? id = none := by
  by_contra hsome
  obtain ⟨launch, hlaunch⟩ := Option.ne_none_iff_exists'.mp hsome
  obtain ⟨r, hr, rfl, -⟩ := executing?_eq_some hlaunch
  exact h (List.mem_map_of_mem hr)

/-- The end of a process whose run is gone changes nothing and gives no result. -/
theorem finish_of_notMem (h : id ∉ m.runs.map (·.id)) (execution : Execution) :
    m.finish id execution = (m, none) := by
  rw [finish, executing?_of_notMem h]

/-! ## Events without a queued run -/

theorem cancel_of_notMem (h : id ∉ m.runs.map (·.id)) : m.cancel id = m := by
  have hkept : m.runs.filter (fun r => r.id ≠ id) = m.runs := by
    rw [List.filter_eq_self]
    intro r hr
    have hne : r.id ≠ id := fun heq => h (heq ▸ List.mem_map_of_mem hr)
    simpa using hne
  rw [cancel, hkept]

theorem cancel_start (h : id ∉ m.runs.map (·.id)) (target : Option Path) :
    (m.start id target).cancel id = m := by
  conv_rhs => rw [← cancel_of_notMem h]
  simp [cancel, start]

theorem cancel_comm (m : Machine) (id other : String) :
    (m.cancel id).cancel other = (m.cancel other).cancel id := by
  simp only [cancel, List.filter_filter, Bool.and_comm]

theorem executing?_cancel (h : m.executing? id = none) (other : String) :
    (m.cancel id).executing? other = m.executing? other := by
  by_cases hother : other = id
  · subst hother
    rw [h]
    exact executing?_of_notMem (m.notMem_ids_cancel other)
  · rw [executing?, executing?, cancel, List.find?_filter]
    congr 2
    funext r
    by_cases hr : r.id = other <;> simp [hr, hother]

theorem finish_cancel (h : m.executing? id = none) (other : String) (execution : Execution) :
    (m.cancel id).finish other execution =
      ((m.finish other execution).1.cancel id, (m.finish other execution).2) := by
  rw [finish, finish, executing?_cancel h]
  cases m.executing? other with
  | none => rfl
  | some launch =>
    rw [cancel_comm]
    rfl

/-- An event gives no turn on the files of which a run has the turn. -/
def IsClearOf (m : Machine) (id : String) (event : Event) : Prop :=
  ∀ r ∈ m.runs, event = .turn r.id → m.guard.holder? r.key ≠ some id

theorem turn_cancel {other : String} (hclear : m.IsClearOf id (.turn other)) :
    (m.cancel id).turn other = (m.turn other).cancel id := by
  have hkept (r : Run) : (if r.id = other then m.advance r else r).id = r.id := by
    split_ifs <;> simp
  simp only [turn, cancel, List.filter_map, Function.comp_def, hkept, Machine.mk.injEq, true_and]
  refine List.map_congr_left fun r hr => ?_
  split_ifs with hother
  · exact advance_cancel (hclear r (List.mem_of_mem_filter hr) (hother ▸ rfl))
  · rfl

theorem shown?_turn_cancel {other : String} (hclear : m.IsClearOf id (.turn other)) :
    (m.cancel id).shown? (.turn other) = m.shown? (.turn other) := by
  have hfind : (m.cancel id).runs.find? (fun r => (m.cancel id).isDue r && r.id = other) =
      m.runs.find? fun r => m.isDue r && r.id = other := by
    have hruns : (m.cancel id).runs = m.runs.filter fun r => r.id ≠ id := rfl
    rw [hruns, List.find?_filter]
    refine List.find?_congr fun r hr => ?_
    by_cases hother : r.id = other
    · have hholder := hclear r hr (hother ▸ rfl)
      have hdue : (m.cancel id).isDue r = m.isDue r := isDue_cancel hholder
      by_cases hid : r.id = id
      · -- The run itself is not launched where it has no turn.
        have hnot : m.isDue r = false :=
          Bool.eq_false_iff.mpr fun h => hholder (hid ▸ (isDue_iff.mp h).2)
        simp [hid, hnot]
      · simp [hid, hdue]
    · simp [hother]
  rw [shown?_turn, shown?_turn, hfind]
  rfl

/-- To an event it makes no difference whether a run is there that is not launched, unless
the event gives a turn on the files of which the run has the turn, or starts another run
under the same id. -/
theorem step_cancel (hnone : m.executing? id = none) (hclear : m.IsClearOf id event)
    (hstart : ¬ event.Starts id) :
    (m.cancel id).step event = (m.step event).cancel id ∧
      (m.cancel id).shown? event = m.shown? event := by
  cases event with
  | start other target =>
    have hne : other ≠ id := hstart
    have hused : other ∈ (m.cancel id).runs.map (·.id) ↔ other ∈ m.runs.map (·.id) := by
      simp only [cancel, List.mem_map, List.mem_filter]
      constructor
      · rintro ⟨r, ⟨hr, -⟩, rfl⟩
        exact ⟨r, hr, rfl⟩
      · rintro ⟨r, hr, rfl⟩
        exact ⟨r, ⟨hr, by simpa using hne⟩, rfl⟩
    refine ⟨?_, rfl⟩
    rw [step, step]
    simp only [hused]
    split_ifs
    · rfl
    · simp [start, cancel, hne]
  | cancel other => exact ⟨m.cancel_comm id other, rfl⟩
  | configure settings => exact ⟨rfl, rfl⟩
  | turn other => exact ⟨turn_cancel hclear, shown?_turn_cancel hclear⟩
  | finish other execution =>
    rw [step, step, shown?, shown?, finish_cancel hnone]
    exact ⟨rfl, rfl⟩

/-! ## Schedules without a queued run -/

/-- A run has been started and has not been launched. -/
def IsQueued (m : Machine) (id : String) : Prop := ∃ r ∈ m.runs, r.id = id ∧ r.launch = none

/-- Every turn of a schedule comes to a run that has it. -/
def IsTimely (m : Machine) : List Event → Prop
  | [] => True
  | event :: events =>
    (∀ id, event = .turn id → ∃ r ∈ m.runs, r.id = id ∧ m.isDue r = true) ∧
      (m.step event).IsTimely events

theorem IsQueued.executing? (hsound : m.IsSound) (h : m.IsQueued id) : m.executing? id = none := by
  obtain ⟨r, hr, rfl, hlaunch⟩ := h
  rw [hsound.executing?_eq hr, hlaunch]

/-- A run that is queued after an event was queued before and has not been launched, unless
the event started it. -/
theorem IsQueued.of_step (h : (m.step event).IsQueued id) (hstart : ¬ event.Starts id) :
    ∃ r ∈ m.runs, r.id = id ∧ r.launch = none ∧ (event = .turn id → m.isDue r = false) := by
  obtain ⟨r, hr, rfl, hlaunch⟩ := h
  by_cases hturn : event = .turn r.id
  · subst hturn
    obtain ⟨before, hbefore, hafter⟩ := List.mem_map.mp hr
    have hid : before.id = r.id := by
      rw [← hafter]
      split_ifs <;> simp
    rw [if_pos hid, advance] at hafter
    split_ifs at hafter with hdue
    · rw [← hafter] at hlaunch
      cases hlaunch
    · exact ⟨before, hbefore, hid, hafter ▸ hlaunch, fun _ => Bool.eq_false_iff.mpr hdue⟩
  · refine (mem_runs_step hr).elim (fun hr => ⟨r, hr, rfl, hlaunch, fun h => absurd h hturn⟩) ?_
    rintro (⟨_, target, rfl, -, rfl⟩ | ⟨before, -, -, -, rfl⟩)
    · exact absurd rfl hstart
    · cases hlaunch

theorem IsQueued.of_afterAll (h : (m.afterAll events).IsQueued id)
    (hstart : ∀ event ∈ events, ¬ event.Starts id) : m.IsQueued id := by
  induction events generalizing m with
  | nil => exact h
  | cons event events ih =>
    obtain ⟨hevent, hevents⟩ := List.forall_mem_cons.mp hstart
    obtain ⟨r, hr, hid, hlaunch, -⟩ := (ih h hevents).of_step hevent
    exact ⟨r, hr, hid, hlaunch⟩

/-- A run that waits after an event has waited before, unless the event started it: who has
a turn keeps it. -/
theorem mem_waiting_of_step (hsound : m.IsSound) (h : id ∈ (m.step event).guard.waiting)
    (hstart : ¬ event.Starts id) : id ∈ m.guard.waiting := by
  have hnone := (hsound.step event).proper.holder?_ne_of_mem_waiting h
  obtain ⟨key, hrequest, -⟩ := Guard.mem_waiting_iff_exists_request.mp h
  obtain ⟨r, hr, rfl, -⟩ := mem_requests_iff.mp hrequest
  refine Guard.mem_waiting_iff_exists_request.mpr
    ⟨r.key, ?_, fun hholder => hnone r.key (holder?_step hr hholder)⟩
  rcases mem_runs_step hr with hr | ⟨_, target, rfl, -, rfl⟩ | ⟨before, hbefore, -, -, rfl⟩
  · exact mem_requests hr
  · exact absurd rfl hstart
  · exact mem_requests_iff.mpr ⟨before, hbefore, rfl, rfl⟩

theorem mem_waiting_of_afterAll (hsound : m.IsSound) (h : id ∈ (m.afterAll events).guard.waiting)
    (hstart : ∀ event ∈ events, ¬ event.Starts id) : id ∈ m.guard.waiting := by
  induction events generalizing m with
  | nil => exact h
  | cons event events ih =>
    obtain ⟨hevent, hevents⟩ := List.forall_mem_cons.mp hstart
    exact mem_waiting_of_step hsound (ih (hsound.step event) h hevents) hevent

/-- Where turns come to those that have them, a run that stays queued does not stand in
front of any of them. -/
theorem isClearOf_of_isTimely (hsound : m.IsSound) (hqueued : (m.step event).IsQueued id)
    (hturn : ∀ id, event = .turn id → ∃ r ∈ m.runs, r.id = id ∧ m.isDue r = true) :
    m.IsClearOf id event := by
  rintro r hr rfl hholder
  obtain ⟨s, hs, hid, hdue⟩ := hturn r.id rfl
  obtain rfl := hsound.eq_of_id_eq hs hr hid
  -- The run that is launched would be the queued one.
  have hself : s.id = id := Option.some.inj ((isDue_iff.mp hdue).2.symm.trans hholder)
  obtain ⟨t, ht, htid, -, hnot⟩ := hqueued.of_step not_false
  obtain rfl := hsound.eq_of_id_eq ht hs (htid.trans hself.symm)
  rw [hnot (by rw [hself])] at hdue
  cases hdue

/-- To a schedule it makes no difference whether a run is queued that is still queued at
its end, if the run still waits then, or if all turns come to runs that have them. -/
theorem log_cancel (hsound : m.IsSound) (hstart : ∀ event ∈ events, ¬ event.Starts id)
    (hqueued : (m.afterAll events).IsQueued id)
    (hturns : id ∈ (m.afterAll events).guard.waiting ∨ m.IsTimely events) :
    (m.cancel id).log events = m.log events ∧
      (m.cancel id).afterAll events = (m.afterAll events).cancel id := by
  induction events generalizing m with
  | nil => exact ⟨rfl, rfl⟩
  | cons event events ih =>
    obtain ⟨hevent, hevents⟩ := List.forall_mem_cons.mp hstart
    -- What is queued at the end was queued all along, so the event meets it queued.
    have hclear : m.IsClearOf id event := by
      rcases hturns with hwaits | htimely
      · have hwaits : id ∈ m.guard.waiting := mem_waiting_of_afterAll hsound hwaits hstart
        exact fun r _ _ => hsound.proper.holder?_ne_of_mem_waiting hwaits r.key
      · exact isClearOf_of_isTimely hsound (IsQueued.of_afterAll hqueued hevents) htimely.1
    have hnone : m.executing? id = none := (IsQueued.of_afterAll hqueued hstart).executing? hsound
    obtain ⟨hstep, hshown⟩ := step_cancel hnone hclear hevent
    obtain ⟨hlog, hafter⟩ :=
      ih (hsound.step event) hevents hqueued (hturns.imp_right fun htimely => htimely.2)
    constructor
    · rw [log, log, hshown, hstep, hlog]
      rfl
    · change ((m.cancel id).step event).afterAll events = _
      rw [hstep, hafter]
      rfl

/-- A queued run that is dropped might as well not have been started. -/
theorem log_start_cancel (hsound : m.IsSound) (hfree : id ∉ m.runs.map (·.id))
    (target : Option Path) (hstart : ∀ event ∈ events, ¬ event.Starts id)
    (hqueued : ((m.step (.start id target)).afterAll events).IsQueued id)
    (hturns : id ∈ ((m.step (.start id target)).afterAll events).guard.waiting ∨
      (m.step (.start id target)).IsTimely events) (later : List Event) :
    m.log (.start id target :: (events ++ .cancel id :: later)) =
        (none, m.store) ::
          (m.log events ++ (none, (m.afterAll events).store) :: (m.afterAll events).log later) ∧
      m.afterAll (.start id target :: (events ++ .cancel id :: later)) =
        m.afterAll (events ++ later) := by
  have hbefore : (m.step (.start id target)).cancel id = m := by
    rw [step, if_neg hfree, cancel_start hfree]
  obtain ⟨hlog, hafter⟩ := log_cancel (hsound.step _) hstart hqueued hturns
  rw [hbefore] at hlog hafter
  have hdropped : ((m.step (.start id target)).afterAll events).step (.cancel id) =
      m.afterAll events := hafter.symm
  have hstore : (m.step (.start id target)).store = m.store := by
    rw [step, if_neg hfree]
    rfl
  constructor
  · rw [log, log_append, log, hdropped, ← hlog, hstore]
    rfl
  · change (m.step (.start id target)).afterAll (events ++ .cancel id :: later) = _
    rw [afterAll_append, afterAll_append, ← hdropped]
    rfl

/-- At any moment of any schedule, a run that has not ended may be dropped. That shows
nothing, and leaves all but the run and its lock as they are. The end of its process later
changes nothing. If the run was still queued, all events show the same as if it had not been
started, and leave the same stores. That is so if the run still waited. If it had its turn
and was not launched yet, the turns until then must have come to runs that had them. -/
theorem dropping_is_clean (root : Path) (settings : Settings) (store : Store)
    (events : List Event) :
    let initial : Machine := { root, settings, store }
    let m := initial.afterAll events
    (∀ r ∈ m.runs, let dropped := m.step (.cancel r.id)
      m.IsDropped dropped r ∧
      (r.isExecuting = true → m.guard.holder? r.key = some r.id) ∧
      initial.log (events ++ [.cancel r.id]) = initial.log events ++ [(none, m.store)] ∧
      ∀ later, (∀ event ∈ later, ¬ event.Starts r.id) → ∀ execution,
        (dropped.afterAll later).finish r.id execution = (dropped.afterAll later, none)) ∧
    ∀ (id : String) (target : Option Path) (between later : List Event),
      id ∉ m.runs.map (·.id) → (∀ event ∈ between, ¬ event.Starts id) →
      ((m.step (.start id target)).afterAll between).IsQueued id →
      id ∈ ((m.step (.start id target)).afterAll between).guard.waiting ∨
        (m.step (.start id target)).IsTimely between →
      initial.log (events ++ .start id target :: (between ++ .cancel id :: later)) =
        initial.log events ++ (none, m.store) :: (m.log between ++
          (none, (m.afterAll between).store) :: (m.afterAll between).log later) ∧
      initial.log (events ++ (between ++ later)) =
        initial.log events ++ (m.log between ++ (m.afterAll between).log later) ∧
      initial.afterAll (events ++ .start id target :: (between ++ .cancel id :: later)) =
        initial.afterAll (events ++ (between ++ later)) := by
  intro initial m
  have hsound : m.IsSound := isSound_afterAll (isSound_of_runs_nil rfl) events
  refine ⟨fun r hr => ⟨isDropped_cancel hsound hr, hsound.hasTurn r hr, ?_, ?_⟩, ?_⟩
  · rw [log_append]
    rfl
  · intro later hlater execution
    exact finish_of_notMem (notMem_ids_afterAll (m.notMem_ids_cancel r.id) hlater) execution
  · intro id target between later hfree hstart hqueued hturns
    obtain ⟨hlog, hafter⟩ := log_start_cancel hsound hfree target hstart hqueued hturns later
    refine ⟨?_, ?_, ?_⟩
    · rw [log_append, hlog]
    · rw [log_append, log_append]
    · rw [afterAll_append, hafter, ← afterAll_append]

section Impatient

/-- While a file is analysed, one run waits for it, and another one behind that. -/
def impatientRuns : List Event := [.start "third" (some sharedFile), .turn "third"]

/-- The run that waits is dropped, so the one behind it follows the first. -/
theorem dropping_is_clean_impatientRuns :
    let initial : Machine := { root := .ofString "/p" }
    let before : List Event := [.start "first" (some sharedFile), .turn "first"]
    let later : List Event := [.finish "first" cleanEnd, .turn "third"]
    let m := initial.afterAll (before ++ .start "second" (some sharedFile) ::
      (impatientRuns ++ .cancel "second" :: later))
    m = initial.afterAll (before ++ (impatientRuns ++ later)) ∧
      (m.executing? "third").isSome = true := by
  intro initial before later m
  have hfree : "second" ∉ (initial.afterAll before).runs.map (·.id) := by decide +kernel
  have hqueued : (((initial.afterAll before).step (.start "second" (some sharedFile))).afterAll
      impatientRuns).IsQueued "second" := by
    unfold IsQueued
    decide +kernel
  have hwaits : "second" ∈ (((initial.afterAll before).step
      (.start "second" (some sharedFile))).afterAll impatientRuns).guard.waiting := by
    decide +kernel
  obtain ⟨-, -, hafter⟩ := (dropping_is_clean (.ofString "/p") {} {} before).2 "second"
    (some sharedFile) impatientRuns later hfree (by simp [impatientRuns, Event.Starts]) hqueued
    (.inl hwaits)
  exact ⟨hafter, by decide +kernel⟩

end Impatient

end Machine

end DiagnosticRelay
