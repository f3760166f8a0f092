import DiagnosticRelay.Proofs.Run.Independence
import DiagnosticRelay.Proofs.Run.Schedule

/-!
# Overlapping runs as a sequence

Runs with the same key take turns in the order of their start, and runs that keep to
different files are nothing to each other. So if the settings stay, and all runs are on
the project or each keeps to its own file, the store is as if the runs had been executed
one after another in the order in which they were started, whatever their processes did
in between.

The proof looks ahead: what the runs that are there and those still to be started will
do, in the order of their start, is fixed by the events to come, and together with the
store it says at every moment what the store will be.

## Main definitions

* `Machine.Fate`, `Machine.fate`: what becomes of a run.
* `Machine.started`: the runs that a schedule starts, and what becomes of them.
* `Machine.passes`: the runs whose processes end, in the order of their start.
* `Machine.forthcoming`: the same, of the runs that are there and those to be started.

## Main results

* `store_afterAll_eq_replay`: the store after a schedule is that of what is forthcoming.
* `store_afterAll_eq_inStartOrder`: overlapping runs as a sequence.
-/

namespace DiagnosticRelay.Machine

/-! ## What becomes of runs -/

/-- What becomes of a run. -/
inductive Fate where
  /-- Its process ends. -/
  | ended (execution : Execution)
  | dropped
  /-- It is still there. -/
  | standing

/-- What an event makes of the run of an id, unless it leaves the run there. -/
def verdict? (m : Machine) (id : String) : Event → Option Fate
  | .cancel other => if other = id then some .dropped else none
  | .finish other execution =>
    if other = id ∧ (m.executing? other).isSome then some (.ended execution) else none
  | _ => none

/-- What the events of a schedule make of the run of an id. -/
def fate (m : Machine) (id : String) : List Event → Fate
  | [] => .standing
  | event :: events => (m.verdict? id event).getD ((m.step event).fate id events)

/-- The run that an event starts, if it starts one. -/
def started? (m : Machine) : Event → Option Run
  | .start id target =>
    if id ∈ m.runs.map (·.id) then none else some { id, target := target.map Path.normalize }
  | _ => none

/-- The runs that a schedule starts, in the order of their start, with their targets in
normal form and what becomes of them. -/
def started (m : Machine) : List Event → List (Option Path × Fate)
  | [] => []
  | event :: events =>
    (m.started? event).toList.map (fun r => (r.target, (m.step event).fate r.id events)) ++
      (m.step event).started events

/-- A run whose process ends, with the settings in force. -/
def Fate.pass? (settings : Settings) (target : Option Path) : Fate → Option Pass
  | .ended execution => some { settings, target, execution }
  | .dropped | .standing => none

/-- Of the runs that a schedule starts, those whose processes end, in the order of their
start. -/
def passes (m : Machine) (events : List Event) : List Pass :=
  (m.started events).filterMap fun s => s.2.pass? m.settings s.1

/-- What is to come of a run. -/
def passOf? (m : Machine) (events : List Event) (r : Run) : Option Pass :=
  (m.fate r.id events).pass? m.settings r.target

/-- Of the runs that are there and those that a schedule starts, those whose processes
end, in the order of their start. -/
def forthcoming (m : Machine) (events : List Event) : List Pass :=
  m.runs.filterMap (m.passOf? events) ++ m.passes events

variable {m : Machine} {r s : Run} {id : String} {event : Event} {events : List Event}

theorem forthcoming_of_runs_nil (h : m.runs = []) (events : List Event) :
    m.forthcoming events = m.passes events := by
  rw [forthcoming, h, List.filterMap_nil, List.nil_append]

theorem forthcoming_nil (m : Machine) : m.forthcoming [] = [] := by
  have hnone : m.runs.filterMap (m.passOf? []) = [] :=
    List.filterMap_eq_nil_iff.mpr fun _ _ => rfl
  rw [forthcoming, hnone]
  rfl

theorem mem_forthcoming {execution : Execution} (hr : r ∈ m.runs)
    (h : m.fate r.id events = .ended execution) :
    { settings := m.settings, target := r.target, execution } ∈ m.forthcoming events := by
  refine List.mem_append_left _ (List.mem_filterMap.mpr ⟨r, hr, ?_⟩)
  rw [passOf?, h]
  rfl

/-! ## One event -/

theorem fate_cons_of_none (h : m.verdict? id event = none) (events : List Event) :
    m.fate id (event :: events) = (m.step event).fate id events := by
  rw [fate, h, Option.getD_none]

/-- A run that is there after an event is left there by it. -/
theorem verdict?_of_mem_runs_step (h : r ∈ (m.step event).runs) : m.verdict? r.id event = none := by
  have ne_of_cancel {other : String} (h : r ∈ (m.cancel other).runs) : other ≠ r.id :=
    fun heq => by simpa [heq] using (List.mem_filter.mp h).2
  cases event with
  | cancel other => exact if_neg (ne_of_cancel h)
  | finish other execution =>
    refine if_neg ?_
    rintro ⟨rfl, hsome⟩
    obtain ⟨launch, hlaunch⟩ := Option.isSome_iff_exists.mp hsome
    rw [step, finish, hlaunch] at h
    exact ne_of_cancel h rfl
  | _ => rfl

/-- A run that an event leaves there is there after it. -/
theorem exists_mem_runs_step (hr : r ∈ m.runs) (h : m.verdict? r.id event = none) :
    ∃ s ∈ (m.step event).runs, s.id = r.id := by
  have of_cancel {other : String} (hne : other ≠ r.id) : r ∈ (m.cancel other).runs :=
    List.mem_filter.mpr ⟨hr, by simpa using hne.symm⟩
  cases event with
  | start other target =>
    refine ⟨r, ?_, rfl⟩
    rw [step]
    split_ifs
    · exact hr
    · exact List.mem_append_left _ hr
  | cancel other => exact ⟨r, of_cancel fun heq => by simp [verdict?, heq] at h, rfl⟩
  | configure settings => exact ⟨r, hr, rfl⟩
  | turn other =>
    refine ⟨_, List.mem_map_of_mem hr, ?_⟩
    split_ifs <;> simp
  | finish other execution =>
    refine ⟨r, ?_, rfl⟩
    rw [step, finish]
    cases hlaunch : m.executing? other with
    | none => exact hr
    | some launch => exact of_cancel fun heq => by simp [verdict?, heq ▸ hlaunch, heq] at h

theorem settings_step (h : ∀ t, event = .configure t → t = m.settings) :
    (m.step event).settings = m.settings := by
  cases event with
  | start id target =>
    rw [step]
    split_ifs <;> rfl
  | configure settings => exact h settings rfl
  | finish id execution =>
    simp only [step, finish]
    split <;> rfl
  | _ => rfl

theorem passOf?_step (hsettings : (m.step event).settings = m.settings)
    (h : m.verdict? r.id event = none) :
    (m.step event).passOf? events r = m.passOf? (event :: events) r := by
  rw [passOf?, passOf?, fate_cons_of_none h, hsettings]

theorem passes_cons (hsettings : (m.step event).settings = m.settings) :
    m.passes (event :: events) =
      (m.started? event).toList.filterMap ((m.step event).passOf? events) ++
        (m.step event).passes events := by
  rw [passes, started, List.filterMap_append, List.filterMap_map, passes, hsettings]
  refine congrArg (· ++ _) (List.filterMap_congr fun r _ => ?_)
  simp [passOf?, hsettings]

/-! ## The run that ends -/

theorem holder?_eq_find? (m : Machine) (key : RunKey) :
    m.guard.holder? key = (m.runs.find? fun r => r.key = key).map (·.id) := by
  rw [Guard.holder?, guard, List.find?_map, Option.map_map]
  rfl

/-- A run that is executed is the first of its key, and the only one of its id. -/
theorem IsSound.exists_split (h : m.IsSound) {launch : Launch}
    (hlaunch : m.executing? id = some launch) :
    ∃ earlier r later, m.runs = earlier ++ r :: later ∧ r.id = id ∧ r.launch = some launch ∧
      (∀ s ∈ earlier, s.key ≠ r.key) ∧ ∀ s ∈ earlier ++ later, s.id ≠ id := by
  obtain ⟨r, hr, rfl, hfixed⟩ := executing?_eq_some hlaunch
  have hproper := h.proper
  rw [Guard.IsProper, owners_guard] at hproper
  have hholder := h.hasTurn r hr (isExecuting_of_launch hfixed)
  rw [holder?_eq_find?] at hholder
  obtain ⟨s, hs, hid⟩ := Option.map_eq_some_iff.mp hholder
  obtain rfl : s = r := h.eq_of_id_eq (List.mem_of_find?_eq_some hs) hr hid
  obtain ⟨-, earlier, later, hruns, hearlier⟩ := List.find?_eq_some_iff_append.mp hs
  refine ⟨earlier, s, later, hruns, rfl, hfixed, by simpa using hearlier, ?_⟩
  rw [hruns, List.map_append, List.map_cons, List.nodup_middle, List.nodup_cons] at hproper
  intro t ht heq
  refine hproper.1 ?_
  rw [← List.map_append, ← heq]
  exact List.mem_map_of_mem ht

/-- The run that ends goes, and the store is what it makes of it. -/
theorem step_finish {earlier later : List Run} {launch : Launch} (execution : Execution)
    (hlaunch : m.executing? id = some launch) (hruns : m.runs = earlier ++ r :: later)
    (hid : r.id = id) (hids : ∀ s ∈ earlier ++ later, s.id ≠ id) :
    m.step (.finish id execution) =
      { m with runs := earlier ++ later, store := (launch.conclude execution m.store).1 } := by
  have hrest : (earlier ++ r :: later).filter (fun s => s.id ≠ id) = earlier ++ later := by
    have hkept : (earlier ++ later).filter (fun s => s.id ≠ id) = earlier ++ later :=
      List.filter_eq_self.mpr (by simpa using hids)
    rw [List.filter_append, List.filter_cons_of_neg (by simpa using hid), ← List.filter_append,
      hkept]
  rw [step, finish, hlaunch]
  simp only [cancel, hruns, hrest]

/-! ## Looking ahead -/

/-- An event that ends no run leaves what is forthcoming. -/
theorem forthcoming_step (hsettings : (m.step event).settings = m.settings)
    (h : ∀ id execution, event = .finish id execution → m.executing? id = none) :
    (m.step event).forthcoming events = m.forthcoming (event :: events) := by
  have hpass : ∀ r, m.verdict? r.id event = none →
      (m.step event).passOf? events r = m.passOf? (event :: events) r := fun r =>
    passOf?_step hsettings
  rw [forthcoming, forthcoming, passes_cons hsettings, ← List.append_assoc]
  refine congrArg (· ++ _) ?_
  cases event with
  | start id target =>
    -- The run that is started goes over to those that are there.
    have hruns : (m.step (.start id target)).runs =
        m.runs ++ (m.started? (.start id target)).toList := by
      rw [step, started?]
      split_ifs <;> simp [start]
    rw [hruns, List.filterMap_append]
    exact congrArg (· ++ _) (List.filterMap_congr fun r _ => hpass r rfl)
  | cancel id =>
    -- The run that is dropped had nothing to come.
    change (m.runs.filter fun r => r.id ≠ id).filterMap _ = m.runs.filterMap _ ++ []
    rw [List.filterMap_filter, List.append_nil]
    refine List.filterMap_congr fun r _ => ?_
    by_cases hid : r.id = id
    · simp [hid, passOf?, fate, verdict?, Fate.pass?]
    · simpa [hid] using hpass r (if_neg fun heq => hid heq.symm)
  | configure settings =>
    change m.runs.filterMap _ = m.runs.filterMap _ ++ []
    rw [List.append_nil]
    exact List.filterMap_congr fun r _ => hpass r rfl
  | turn id =>
    change (m.runs.map _).filterMap _ = m.runs.filterMap _ ++ []
    rw [List.filterMap_map, List.append_nil]
    refine List.filterMap_congr fun r _ => ?_
    -- A run that is launched keeps its id and its target.
    rw [← hpass r rfl, Function.comp_apply, advance]
    split_ifs <;> rfl
  | finish id execution =>
    have hnone := h id execution rfl
    have hstep : m.step (.finish id execution) = m := by rw [step, finish, hnone]
    rw [hstep] at hpass ⊢
    change m.runs.filterMap _ = m.runs.filterMap _ ++ []
    rw [List.append_nil]
    refine List.filterMap_congr fun r _ => hpass r (if_neg ?_)
    rintro ⟨rfl, hsome⟩
    simp [hnone] at hsome

/-- The run that ends was the first to come of its key. -/
theorem forthcoming_finish {earlier later : List Run} {launch : Launch} (execution : Execution)
    (events : List Event) (hlaunch : m.executing? id = some launch)
    (hruns : m.runs = earlier ++ r :: later)
    (hid : r.id = id) (hids : ∀ s ∈ earlier ++ later, s.id ≠ id) :
    ∃ before after,
      m.forthcoming (.finish id execution :: events) =
        before ++ { settings := m.settings, target := r.target, execution } :: after ∧
      (m.step (.finish id execution)).forthcoming events = before ++ after ∧
      ∀ pass ∈ before, ∃ s ∈ earlier, pass.target = s.target := by
  have hstep := step_finish execution hlaunch hruns hid hids
  have hsettings : (m.step (.finish id execution)).settings = m.settings := by rw [hstep]
  have hpass (s : Run) (hs : s ∈ earlier ++ later) :
      m.passOf? (.finish id execution :: events) s =
        (m.step (.finish id execution)).passOf? events s :=
    (passOf?_step hsettings (if_neg fun h => hids s hs h.1.symm)).symm
  have hended : m.passOf? (.finish id execution :: events) r =
      some { settings := m.settings, target := r.target, execution } := by
    simp [passOf?, fate, verdict?, hid, hlaunch, Fate.pass?]
  refine ⟨earlier.filterMap (m.passOf? (.finish id execution :: events)),
    later.filterMap (m.passOf? (.finish id execution :: events)) ++
      m.passes (.finish id execution :: events), ?_, ?_, ?_⟩
  · rw [forthcoming, hruns, List.filterMap_append, List.filterMap_cons_some hended,
      List.append_assoc, List.cons_append]
  · rw [forthcoming, passes_cons hsettings, List.filterMap_congr fun s hs =>
      hpass s (List.mem_append_left _ hs), List.filterMap_congr fun s hs =>
      hpass s (List.mem_append_right _ hs), ← List.append_assoc, ← List.filterMap_append, hstep]
    rfl
  · intro pass hpass
    obtain ⟨s, hs, hsome⟩ := List.mem_filterMap.mp hpass
    refine ⟨s, hs, ?_⟩
    rw [passOf?] at hsome
    cases hfate : m.fate s.id (.finish id execution :: events) <;>
      simp only [hfate, Fate.pass?, Option.some.injEq, reduceCtorEq] at hsome
    rw [← hsome]

/-- What the runs that will end have fixed is what they would fix now. -/
def IsReady (m : Machine) (events : List Event) : Prop :=
  ∀ r ∈ m.runs, ∀ launch execution, r.launch = some launch →
    m.fate r.id events = .ended execution → launch = m.launch r

theorem launch_congr {n : Machine} (hroot : n.root = m.root) (hsettings : n.settings = m.settings)
    (hstore : ∀ t, r.target = some t → n.store.contains t = m.store.contains t) :
    n.launch r = m.launch r := by
  rw [launch, launch, hroot, hsettings]
  cases htarget : r.target with
  | none => rfl
  | some t => simp [Launch.of, Store.contains_congr _ t.normalize_same, hstore t htarget]

/-- An event that leaves the store, or that writes nothing for the targets of runs that will
end, leaves them ready. -/
theorem IsReady.step (h : m.IsReady (event :: events))
    (hsettings : (m.step event).settings = m.settings)
    (hstore : ∀ r ∈ m.runs, r ∈ (m.step event).runs → r.isExecuting = true →
      ∀ execution, m.fate r.id (event :: events) = .ended execution →
      ∀ t, r.target = some t → (m.step event).store.contains t = m.store.contains t) :
    (m.step event).IsReady events := by
  intro r hr launch execution hlaunch hfate
  rw [← fate_cons_of_none (verdict?_of_mem_runs_step hr)] at hfate
  rcases mem_runs_step hr with hbefore | ⟨id, target, -, -, rfl⟩ | ⟨before, -, rfl, -, rfl⟩
  · rw [h r hbefore launch execution hlaunch hfate]
    exact (launch_congr (m.root_step event) hsettings
      (hstore r hbefore hr (isExecuting_of_launch hlaunch) execution hfate)).symm
  · cases hlaunch
  · -- The run has just read what is there.
    rw [← Option.some.inj hlaunch]
    rfl

theorem store_step_of_not_ends
    (h : ∀ id execution, event = .finish id execution → m.executing? id = none) :
    (m.step event).store = m.store := by
  cases event with
  | start id target =>
    rw [step]
    split_ifs <;> rfl
  | finish id execution => rw [step, finish, h id execution rfl]
  | _ => rfl

/-- A run that ends comes before what else is forthcoming, and leaves that ready. -/
theorem forthcoming_of_ends {execution : Execution} {launch : Launch} (hsound : m.IsSound)
    (hsorted : m.store.IsSorted) (hlaunch : m.executing? id = some launch)
    (hapart : ∀ a ∈ m.forthcoming (.finish id execution :: events),
      ∀ b ∈ m.forthcoming (.finish id execution :: events), a.AreApart m.root b)
    (hready : m.IsReady (.finish id execution :: events)) :
    (m.step (.finish id execution)).IsReady events ∧
      (m.step (.finish id execution)).store.IsSorted ∧
      (∀ pass ∈ (m.step (.finish id execution)).forthcoming events,
        pass ∈ m.forthcoming (.finish id execution :: events)) ∧
      Pass.replay m.root m.store (m.forthcoming (.finish id execution :: events)) =
        Pass.replay m.root (m.step (.finish id execution)).store
          ((m.step (.finish id execution)).forthcoming events) := by
  obtain ⟨earlier, r, later, hruns, hid, hfixed, hkeys, hids⟩ := hsound.exists_split hlaunch
  have hr : r ∈ m.runs := by simp [hruns]
  have hfate : m.fate r.id (.finish id execution :: events) = .ended execution := by
    simp [fate, verdict?, hid, hlaunch]
  -- The run ends as if it had its turn only now.
  have hpass := mem_forthcoming hr hfate
  set pass : Pass := { settings := m.settings, target := r.target, execution } with hdef
  have hstore : (m.step (.finish id execution)).store = Pass.after m.root m.store pass := by
    rw [step_finish execution hlaunch hruns hid hids, hready r hr launch execution hfixed hfate]
    rfl
  obtain ⟨before, after, hall, hleft, hbefore⟩ :=
    forthcoming_finish execution events hlaunch hruns hid hids
  have hne : ∀ a ∈ before, a.key ≠ pass.key := fun a ha => by
    obtain ⟨s, hs, htarget⟩ := hbefore a ha
    rw [Pass.key, htarget]
    exact hkeys s hs
  refine ⟨hready.step (settings_step fun _ h => by cases h) ?_, ?_, ?_, ?_⟩
  · intro s hs hleft hexecuting execution' hfate' t ht
    -- Another run that is executed has another key.
    have hkey : pass.key ≠ s.key := fun heq => by
      have hsame := hsound.eq_of_key_eq hr hs (isExecuting_of_launch hfixed) hexecuting heq
      rw [step_finish execution hlaunch hruns hid hids] at hleft
      exact hids s hleft (hsame ▸ hid)
    rw [hstore]
    exact (hapart _ hpass _ (mem_forthcoming hs hfate')).contains_after hkey ht
  · rw [hstore]
    exact Pass.isSorted_after hsorted
  · intro a ha
    rw [hleft, List.mem_append] at ha
    rw [hall, List.mem_append]
    exact ha.imp_right (List.mem_cons_of_mem _)
  · rw [hall, hleft, hstore]
    refine Pass.replay_move hsorted (fun a ha => hapart a ?_ pass hpass) hne after
    rw [hall]
    exact List.mem_append_left _ ha

/-- At every moment the store will be that of what is forthcoming, one run after another in
the order of their start. -/
theorem store_afterAll_eq_replay (hsound : m.IsSound) (hsorted : m.store.IsSorted)
    (hsettings : ∀ s, .configure s ∈ events → s = m.settings)
    (hapart : ∀ a ∈ m.forthcoming events, ∀ b ∈ m.forthcoming events, a.AreApart m.root b)
    (hready : m.IsReady events) :
    (m.afterAll events).store = Pass.replay m.root m.store (m.forthcoming events) := by
  induction events generalizing m with
  | nil =>
    rw [forthcoming_nil]
    rfl
  | cons event events ih =>
    change ((m.step event).afterAll events).store = _
    have hkept : (m.step event).settings = m.settings :=
      settings_step fun t ht => hsettings t (ht ▸ List.mem_cons_self)
    have hlater : ∀ s, .configure s ∈ events → s = (m.step event).settings := fun s hs => by
      rw [hkept]
      exact hsettings s (List.mem_cons_of_mem _ hs)
    have hroot := m.root_step event
    by_cases hends : ∃ id execution launch, event = .finish id execution ∧
        m.executing? id = some launch
    · obtain ⟨id, execution, launch, rfl, hlaunch⟩ := hends
      obtain ⟨hready', hsorted', hsub, hreplay⟩ :=
        forthcoming_of_ends hsound hsorted hlaunch hapart hready
      rw [hreplay, ← hroot]
      refine ih (hsound.step _) hsorted' hlater (fun a ha b hb => ?_) hready'
      rw [hroot]
      exact hapart a (hsub a ha) b (hsub b hb)
    · have hnone : ∀ id execution, event = .finish id execution → m.executing? id = none := by
        intro id execution heq
        by_contra hsome
        obtain ⟨launch, hlaunch⟩ := Option.ne_none_iff_exists'.mp hsome
        exact hends ⟨id, execution, launch, heq, hlaunch⟩
      have hstore := store_step_of_not_ends hnone
      rw [← forthcoming_step hkept hnone, ← hroot] at hapart ⊢
      rw [← hstore] at hsorted ⊢
      refine ih (hsound.step event) hsorted hlater hapart (hready.step hkept ?_)
      intro r _ _ _ _ _ t _
      rw [hstore]

/-! ## Runs that are left -/

/-- A run of which nothing becomes is there after all events. -/
theorem exists_mem_runs_afterAll (hr : r ∈ m.runs) (h : m.fate r.id events = .standing) :
    ∃ s ∈ (m.afterAll events).runs, s.id = r.id := by
  induction events generalizing m r with
  | nil => exact ⟨r, hr, rfl⟩
  | cons event events ih =>
    have hnone : m.verdict? r.id event = none := by
      cases event with
      | cancel other =>
        refine if_neg fun heq => ?_
        simp [fate, verdict?, heq] at h
      | finish other execution =>
        refine if_neg ?_
        rintro ⟨rfl, hsome⟩
        simp [fate, verdict?, hsome] at h
      | _ => rfl
    obtain ⟨s, hs, hid⟩ := exists_mem_runs_step hr hnone
    rw [fate_cons_of_none hnone, ← hid] at h
    obtain ⟨t, ht, hsame⟩ := ih hs h
    exact ⟨t, ht, hsame.trans hid⟩

/-- Once no run is there, every run that was started has ended or was dropped. -/
theorem fate_ne_standing (h : (m.afterAll events).runs = []) :
    ∀ s ∈ m.started events, s.2 ≠ .standing := by
  induction events generalizing m with
  | nil => simp [started]
  | cons event events ih =>
    intro s hs hstanding
    rw [started, List.mem_append] at hs
    rcases hs with hs | hs
    · obtain ⟨r, hr, rfl⟩ := List.mem_map.mp hs
      have hmem : r ∈ (m.step event).runs := by
        cases event with
        | start id target =>
          simp only [started?, Option.mem_toList] at hr
          rw [step]
          split_ifs at hr ⊢
          obtain rfl := Option.some.inj hr
          simp [start]
        | _ => simp [started?] at hr
      obtain ⟨t, ht, -⟩ := exists_mem_runs_afterAll hmem hstanding
      change t ∈ (m.afterAll (event :: events)).runs at ht
      simp [h] at ht
    · exact ih h s hs hstanding

/-! ## Sequences -/

/-- Runs on the project have the same key, and runs that keep to their own files are apart. -/
theorem areApart_of {root : Path} {passes : List Pass}
    (h : (∀ pass ∈ passes, pass.target = none) ∨ ∀ pass ∈ passes, pass.IsAtHome root) :
    ∀ a ∈ passes, ∀ b ∈ passes, a.AreApart root b := by
  intro a ha b hb
  rcases h with h | h
  · exact .inl (by rw [Pass.key, Pass.key, h a ha, h b hb])
  · exact .inr ⟨h a ha, h b hb⟩

theorem store_afterAll_eq_replay_passes (hruns : m.runs = []) (hsorted : m.store.IsSorted)
    (hsettings : ∀ s, .configure s ∈ events → s = m.settings)
    (hapart : ∀ a ∈ m.passes events, ∀ b ∈ m.passes events, a.AreApart m.root b) :
    (m.afterAll events).store = Pass.replay m.root m.store (m.passes events) := by
  have hready : m.IsReady events := fun r hr => by simp [hruns] at hr
  rw [← forthcoming_of_runs_nil hruns] at hapart ⊢
  exact store_afterAll_eq_replay (isSound_of_runs_nil hruns) hsorted hsettings hapart hready

/-- While the settings stay, and of the runs that end all are on the project or each reports
violations for its own file only, the store is at every moment as if these runs had been
executed one after another in the order of their start; and once no run is there, these are
all but the dropped ones. So for each path the last started run that succeeded on it counts,
and any schedule that is the same on each key leaves the same store. -/
theorem store_afterAll_eq_inStartOrder (hruns : m.runs = []) (hsorted : m.store.IsSorted)
    (hsettings : ∀ s, .configure s ∈ events → s = m.settings)
    (hkind : (∀ pass ∈ m.passes events, pass.target = none) ∨
      ∀ pass ∈ m.passes events, pass.IsAtHome m.root) :
    (∀ id, (m.afterAll events).store =
        (m.afterAll ((m.passes events).flatMap (eventsAlone id))).store) ∧
      ((m.afterAll events).runs = [] → ∀ s ∈ m.started events, s.2 ≠ .standing) ∧
      (∀ p, (∃ pass report, IsLast (Pass.SucceedsOn p) (m.passes events) pass ∧
            pass.execution.report = .ok report ∧
            (pass.mapping m.root).Says report p ((m.afterAll events).store.get? p)) ∨
          (∀ pass ∈ m.passes events, ¬ pass.SucceedsOn p) ∧
            (m.afterAll events).store.get? p = m.store.get? p) ∧
      ∀ others : List Event, (∀ s, .configure s ∈ others → s = m.settings) →
        (∀ k, (m.passes others).filter (·.key = k) = (m.passes events).filter (·.key = k)) →
        (m.afterAll others).store = (m.afterAll events).store := by
  have hapart := areApart_of hkind
  have hreplay := store_afterAll_eq_replay_passes hruns hsorted hsettings hapart
  refine ⟨fun id => ?_, fate_ne_standing, fun p => ?_, fun others hothers hsame => ?_⟩
  · rw [hreplay, store_afterAll_alone hruns]
  · have hdecides : ∀ pass ∈ m.passes events, pass.Decides m.root p ↔ pass.SucceedsOn p := by
      intro pass hpass
      rcases hkind with hkind | hkind
      · exact Pass.decides_iff_of_project (hkind pass hpass)
      · exact Pass.decides_iff_of_isAtHome (hkind pass hpass)
    rw [hreplay]
    rcases exists_isLast_or_forall_not (Pass.SucceedsOn p) (m.passes events) with
      ⟨pass, hlast⟩ | hnone
    · obtain ⟨report, hreport, hsays⟩ :=
        Pass.says_replay_of_isLast (hlast.congr fun b hb => (hdecides b hb).symm)
      exact .inl ⟨pass, report, hlast, hreport, hsays⟩
    · refine .inr ⟨hnone, Pass.get?_replay_of_not_decides fun pass hpass h => ?_⟩
      exact hnone pass hpass ((hdecides pass hpass).mp h)
  · have hmem : ∀ a ∈ m.passes others, a ∈ m.passes events := fun a ha => by
      have hkey : a ∈ (m.passes others).filter (·.key = a.key) := by simp [ha]
      rw [hsame] at hkey
      exact List.mem_of_mem_filter hkey
    rw [hreplay, store_afterAll_eq_replay_passes hruns hsorted hothers
      fun a ha b hb => hapart a (hmem a ha) b (hmem b hb)]
    exact Pass.replay_congr hsorted hapart hsame

/-! ## Runs on two files -/

section TwoFiles

/-- A workspace without diagnostics. -/
def workspace : Machine := { root := .ofString "/p" }

/-- An output with one violation, in the file of a name. -/
def violationIn (name : String) : Execution := .ok {
  code := some 1
  stdout := "\x7b\"files\":\x7b\"" ++ name ++ "\":\x7b\"messages\":[\x7b\"message\":\"m\"\x7d]\x7d\x7d\x7d"
  stderr := "" }

/-- A run on one file ends while that on another file is executed, and a further run on the
other file is dropped while it waits. -/
def crossingRuns : List Event := [
  .start "a" (some (.ofString "/p/a.php")), .turn "a",
  .start "b" (some (.ofString "/p/b.php")), .turn "b",
  .start "c" (some (.ofString "/p/a.php")), .finish "b" (violationIn "/p/b.php"),
  .cancel "c", .finish "a" (violationIn "/p/a.php")]

/-- A run on a file that finds one violation in it. -/
def runOn (name : String) : Pass :=
  { settings := {}, target := some (.ofString name), execution := violationIn name }

theorem passes_crossingRuns :
    workspace.passes crossingRuns = [runOn "/p/a.php", runOn "/p/b.php"] := by
  decide +kernel

theorem isAtHome_runOn {name : String}
    (hread : (violationIn name).report.toOption =
      some { files := [(name, ⟨some [{ message := "m" }]⟩)] })
    (hname : Path.Same (.ofString name) ((⟨.ofString "/p", ""⟩ : Mapping).localPath name)) :
    (runOn name).IsAtHome (.ofString "/p") := by
  refine ⟨_, rfl, fun report p hreport hreports => ?_⟩
  obtain rfl := Except.ok.inj ((Execution.report_eq_ok_of_toOption hread).symm.trans hreport)
  obtain ⟨found, violations, ⟨hfile, -⟩, hsame⟩ := hreports
  obtain rfl : found = name := congrArg Prod.fst (List.mem_singleton.mp hfile)
  exact hname.trans hsame

/-- The run that ends last was started first, and it is first in the sequence. -/
theorem store_afterAll_crossingRuns :
    (workspace.afterAll crossingRuns).runs = [] ∧
      (workspace.afterAll crossingRuns).store = (workspace.afterAll
        ([runOn "/p/a.php", runOn "/p/b.php"].flatMap (eventsAlone "r"))).store := by
  have hhome : ∀ pass ∈ workspace.passes crossingRuns, pass.IsAtHome (.ofString "/p") := by
    rw [passes_crossingRuns]
    simp only [List.forall_mem_cons, List.not_mem_nil, false_implies, implies_true, and_true]
    exact ⟨isAtHome_runOn (by decide +kernel) (by decide +kernel),
      isAtHome_runOn (by decide +kernel) (by decide +kernel)⟩
  rw [← passes_crossingRuns]
  have hsequence := store_afterAll_eq_inStartOrder (m := workspace) rfl Store.isSorted_empty
    (by simp [crossingRuns]) (.inr hhome)
  exact ⟨by decide +kernel, hsequence.1 "r"⟩

end TwoFiles

end DiagnosticRelay.Machine
