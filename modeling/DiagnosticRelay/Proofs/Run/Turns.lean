import DiagnosticRelay.Proofs.Run.Schedule
import Mathlib.Data.Option.Basic

/-!
# Fair turns

Whatever is asked of a guard, by however many owners on however many keys, every key is
held by one owner at most, nobody waits for a key that is free, and turns are granted in
the order in which they were asked for. The runs of a machine ask for their turns under
the components of their targets, so the same work is never done twice at a time.

## Main definitions

* `Move`: asking for a turn, ending one, and leaving a queue.
* `Ledger`: a guard with all that was asked, granted and withdrawn.
* `Ledger.IsFair`: what is promised of turns.

## Main results

* `Ledger.lock_step`: a move acts on the fair lock of its key and on no other.
* `Ledger.fair_turns`: turns are fair, and runs of the same work exclude each other.
-/

namespace DiagnosticRelay

/-- What can be done with a guard. An owner stands for one request. -/
inductive Move (α : Type) where
  | acquire (owner : α) (key : RunKey)
  /-- The turn of an owner ends. -/
  | release (owner : α)
  /-- An owner that waits leaves. -/
  | withdraw (owner : α)

/-- A guard and what has been done with it. -/
structure Ledger (α : Type) where
  guard : Guard α := {}
  /-- All requests, in the order in which they were made. -/
  asked : List (α × RunKey) := []
  /-- The owners that got their turn, in the order in which they got it. -/
  granted : List α := []
  /-- The owners that left before their turn. -/
  withdrawn : List α := []

variable {α : Type} [DecidableEq α]

/-! ## Granted turns -/

namespace Guard

variable {g before after all : Guard α} {owner : α} {key : RunKey}

theorem mem_holders_iff : owner ∈ g.holders ↔ ∃ key, g.holder? key = some owner := by
  rw [holders, List.mem_map]
  constructor
  · rintro ⟨⟨owner, key⟩, hr, rfl⟩
    exact ⟨key, (g.hasTurn_iff owner key).mp (List.mem_filter.mp hr).2⟩
  · rintro ⟨key, hkey⟩
    exact ⟨(owner, key), List.mem_filter.mpr ⟨mem_queue_iff.mp (mem_queue_of_holder? hkey),
      (g.hasTurn_iff owner key).mpr hkey⟩, rfl⟩

theorem mem_waiting_iff : owner ∈ g.waiting ↔ ∃ key, owner ∈ g.waitingOn key := by
  simp [waiting, waitingOn]

/-- Of the owners in a queue, only its head has its turn. -/
theorem IsProper.filter_queue (h : g.IsProper) (key : RunKey) :
    (g.queue key).filter (fun owner => g.holder? key = some owner) = (g.holder? key).toList := by
  have hnodup := h.nodup_queue key
  rw [holder?_eq_head?]
  cases hqueue : g.queue key with
  | nil => rfl
  | cons first rest =>
    rw [hqueue, List.nodup_cons] at hnodup
    have hrest : rest.filter (fun owner => (first :: rest).head? = some owner) = [] := by
      rw [List.filter_eq_nil_iff]
      intro owner howner
      have : first ≠ owner := fun heq => hnodup.1 (heq ▸ howner)
      simpa using this
    rw [List.filter_cons_of_pos (by simp), hrest]
    rfl

/-- Of the owners that asked for a key, the one that holds it has its turn. -/
theorem filter_holders (hall : all.IsProper) (hsub : g.requests.Sublist all.requests)
    (key : RunKey) : g.holders.filter (· ∈ all.queue key) = (g.holder? key).toList := by
  rw [← (hall.of_sublist hsub).filter_queue, holders]
  conv_rhs => rw [queue, List.filter_map, List.filter_filter]
  rw [List.filter_map, List.filter_filter]
  refine congrArg _ (List.filter_congr fun r hr => ?_)
  -- Every owner asked for one key, so who asked for this key has a request for it.
  have hkey : r.1 ∈ all.queue key ↔ r.2 = key :=
    ⟨fun h => hall.key_unique (mem_queue_of_sublist hsub (mem_queue_iff.mpr hr)) h,
      fun h => mem_queue_of_sublist hsub (mem_queue_iff.mpr (h ▸ hr))⟩
  by_cases h : r.2 = key <;> simp [hkey, h, hasTurn]

/-- Who gets a turn between two queues for a key. -/
def gained (queue queue' : List α) : List α :=
  if queue.head? = queue'.head? then [] else queue'.head?.toList

/-- Of the owners that asked for a key, the new holder gets its turn. -/
theorem filter_granted (hall : all.IsProper) (hbefore : before.requests.Sublist all.requests)
    (hafter : after.requests.Sublist all.requests) (key : RunKey) :
    (granted before after).filter (· ∈ all.queue key) =
      gained (before.queue key) (after.queue key) := by
  have hgranted : (granted before after).filter (· ∈ all.queue key) =
      (after.holder? key).toList.filter (· ∉ before.holders) := by
    rw [granted, ← filter_holders hall hafter key, List.filter_filter, List.filter_filter]
    refine List.filter_congr fun owner _ => ?_
    simp [Bool.and_comm]
  -- The holder is new unless it held the same key before; it cannot have held another.
  rw [hgranted, gained, ← holder?_eq_head?, ← holder?_eq_head?]
  cases hholder : after.holder? key with
  | none => simp
  | some owner =>
    have hheld : owner ∈ before.holders ↔ before.holder? key = some owner := by
      rw [mem_holders_iff]
      refine ⟨fun ⟨k, hk⟩ => ?_, fun h => ⟨key, h⟩⟩
      rwa [hall.key_unique (mem_queue_of_sublist hafter (mem_queue_of_holder? hholder))
        (mem_queue_of_sublist hbefore (mem_queue_of_holder? hk))]
    by_cases h : before.holder? key = some owner <;> simp [hheld, h]

@[simp] theorem gained_self (queue : List α) : gained queue queue = [] := if_pos rfl

theorem gained_concat_append_tail (queue : List α) (owner : α) :
    gained queue (queue ++ [owner]) ++ (queue ++ [owner]).tail = queue.tail ++ [owner] := by
  cases queue <;> simp [gained]

theorem gained_tail_append_tail {queue : List α} (h : owner ∉ queue) :
    gained (owner :: queue) queue ++ queue.tail = queue := by
  cases queue with
  | nil => rfl
  | cons next rest =>
    have hne : owner ≠ next := fun heq => h (heq ▸ List.mem_cons_self)
    simp [gained, hne]

theorem gained_cons (first : α) (rest rest' : List α) :
    gained (first :: rest) (first :: rest') = [] := if_pos rfl

end Guard

namespace Ledger

variable {l : Ledger α} {owner : α} {key : RunKey} {move : Move α}

/-! ## Moves -/

/-- The guard changes, and owners may get their turn. -/
def change (l : Ledger α) (guard : Guard α) : Ledger α :=
  { l with guard, granted := l.granted ++ Guard.granted l.guard guard }

/-- A ledger after a move. An owner asks once, only an owner that has its turn can end
it, and only one that waits can leave. -/
def step (l : Ledger α) : Move α → Ledger α
  | .acquire owner key =>
    if owner ∈ l.asked.map (·.1) then l
    else { l with asked := l.asked ++ [(owner, key)] }.change (l.guard.acquire owner key)
  | .release owner =>
    if owner ∈ l.guard.holders then l.change (l.guard.release owner) else l
  | .withdraw owner =>
    if owner ∈ l.guard.waiting then
      { l with withdrawn := l.withdrawn ++ [owner] }.change (l.guard.release owner)
    else l

/-- The ledger of a sequence of moves. -/
def of (moves : List (Move α)) : Ledger α := moves.foldl step {}

/-- The owners that asked for a key, in the order in which they asked. -/
def askedOn (l : Ledger α) (key : RunKey) : List α := Guard.queue ⟨l.asked⟩ key

/-- The owners that got their turn on a key, in the order in which they got it. -/
def grantedOn (l : Ledger α) (key : RunKey) : List α := l.granted.filter (· ∈ l.askedOn key)

/-- The turns on a key went, and will go, to those that asked and did not leave, in the
order in which they asked. -/
def IsInOrder (l : Ledger α) (key : RunKey) : Prop :=
  l.grantedOn key ++ l.guard.waitingOn key = (l.askedOn key).filter (· ∉ l.withdrawn)

/-- What is promised of turns. -/
structure IsFair (l : Ledger α) : Prop where
  one_holder : ∀ key, (l.guard.requests.filter fun r => r.2 = key ∧ l.guard.hasTurn r).length ≤ 1
  no_lost_turn : ∀ key, l.guard.waitingOn key ≠ [] → (l.guard.holder? key).isSome = true
  isBusy_iff : ∀ key, l.guard.isBusy key = true ↔
    ∃ owner, (owner, key) ∈ l.guard.requests ∧ l.guard.hasTurn (owner, key) = true
  in_order : ∀ key, l.IsInOrder key

/-! ## What holds after every move -/

/-- The requests in force are among those made, every owner made one, and nothing is
granted to or withdrawn by owners that did not ask. -/
structure IsSound (l : Ledger α) : Prop where
  proper : Guard.IsProper ⟨l.asked⟩
  sublist : l.guard.requests.Sublist l.asked
  granted_asked : ∀ owner ∈ l.granted, owner ∈ l.asked.map (·.1)
  withdrawn_asked : ∀ owner ∈ l.withdrawn, owner ∈ l.asked.map (·.1)
  in_order : ∀ key, l.IsInOrder key

theorem IsSound.proper_guard (h : l.IsSound) : l.guard.IsProper := h.proper.of_sublist h.sublist

/-- Turns are granted on a key as its queue moves on. -/
theorem grantedOn_change (hproper : Guard.IsProper ⟨l.asked⟩)
    (hsublist : l.guard.requests.Sublist l.asked) {guard : Guard α}
    (hguard : guard.requests.Sublist l.asked) (key : RunKey) :
    (l.change guard).grantedOn key =
      l.grantedOn key ++ Guard.gained (l.guard.queue key) (guard.queue key) := by
  rw [grantedOn, change, List.filter_append]
  exact congrArg _ (Guard.filter_granted hproper hsublist hguard key)

theorem mem_asked_of_mem_granted {guard : Guard α} (hguard : guard.requests.Sublist l.asked)
    (h : owner ∈ Guard.granted l.guard guard) : owner ∈ l.asked.map (·.1) := by
  obtain ⟨key, hkey⟩ := Guard.mem_holders_iff.mp (List.mem_of_mem_filter h)
  have hmem := Guard.mem_queue_iff.mp (Guard.mem_queue_of_holder? hkey)
  exact List.mem_map_of_mem (f := (·.1)) (hguard.subset hmem)

theorem mem_asked_of_mem_granted_change {guard : Guard α}
    (hgranted : ∀ owner ∈ l.granted, owner ∈ l.asked.map (·.1))
    (hguard : guard.requests.Sublist l.asked) :
    ∀ owner ∈ (l.change guard).granted, owner ∈ l.asked.map (·.1) := by
  intro owner howner
  rcases List.mem_append.mp howner with howner | howner
  · exact hgranted owner howner
  · exact mem_asked_of_mem_granted hguard howner

/-- The order is kept if what is gained and still waits is what has asked and has not
left. -/
theorem isInOrder_change (hproper : Guard.IsProper ⟨l.asked⟩)
    (hsublist : l.guard.requests.Sublist l.asked) {guard : Guard α}
    (hguard : guard.requests.Sublist l.asked)
    (h : l.grantedOn key ++ (Guard.gained (l.guard.queue key) (guard.queue key) ++
      (guard.queue key).tail) = (l.askedOn key).filter (· ∉ l.withdrawn)) :
    (l.change guard).IsInOrder key := by
  have hwaiting : guard.waitingOn key = (guard.queue key).tail :=
    (hproper.of_sublist hguard).waitingOn_eq_tail key
  rw [IsInOrder, grantedOn_change hproper hsublist hguard, List.append_assoc]
  exact hwaiting ▸ h

theorem IsSound.in_order_tail (h : l.IsSound) (key : RunKey) :
    l.grantedOn key ++ (l.guard.queue key).tail = (l.askedOn key).filter (· ∉ l.withdrawn) := by
  rw [← h.proper_guard.waitingOn_eq_tail]
  exact h.in_order key

/-! ## One move -/

theorem IsSound.acquire (h : l.IsSound) (hfresh : owner ∉ l.asked.map (·.1)) (key : RunKey) :
    ({ l with asked := l.asked ++ [(owner, key)] }.change (l.guard.acquire owner key)).IsSound := by
  have hproper : Guard.IsProper ⟨l.asked ++ [(owner, key)]⟩ := h.proper.acquire hfresh
  have hold : l.guard.requests.Sublist (l.asked ++ [(owner, key)]) :=
    h.sublist.trans (List.sublist_append_left _ _)
  have hnew : (l.guard.acquire owner key).requests.Sublist (l.asked ++ [(owner, key)]) :=
    h.sublist.append (List.Sublist.refl _)
  have hmem (other : α) (hother : other ∈ l.asked.map (·.1)) :
      other ∈ (l.asked ++ [(owner, key)]).map (·.1) := by
    rw [List.map_append]
    exact List.mem_append_left _ hother
  refine ⟨hproper, hnew, ?_, fun other hother => hmem other (h.withdrawn_asked other hother),
    fun k => isInOrder_change hproper hold hnew ?_⟩
  · refine mem_asked_of_mem_granted_change (fun other hother => ?_) hnew
    exact hmem other (h.granted_asked other hother)
  have hasked : askedOn { l with asked := l.asked ++ [(owner, key)] } k =
      if k = key then l.askedOn k ++ [owner] else l.askedOn k :=
    Guard.queue_acquire ⟨l.asked⟩ owner key k
  -- The owner is new, so it has not been granted anything under its request.
  have hgranted : grantedOn { l with asked := l.asked ++ [(owner, key)] } k = l.grantedOn k := by
    refine List.filter_congr fun other hother => ?_
    have hne : other ≠ owner := fun heq => hfresh (heq ▸ h.granted_asked other hother)
    rw [hasked]
    split_ifs <;> simp [hne]
  rw [hgranted, hasked, Guard.queue_acquire]
  split_ifs
  · have hkept : owner ∉ l.withdrawn := fun howner => hfresh (h.withdrawn_asked owner howner)
    rw [Guard.gained_concat_append_tail, ← List.append_assoc, h.in_order_tail, List.filter_append]
    simp [hkept]
  · rw [Guard.gained_self, List.nil_append, h.in_order_tail]

theorem IsSound.release (h : l.IsSound) (howner : owner ∈ l.guard.holders) :
    (l.change (l.guard.release owner)).IsSound := by
  have hnew : (l.guard.release owner).requests.Sublist l.asked :=
    List.filter_sublist.trans h.sublist
  refine ⟨h.proper, hnew, mem_asked_of_mem_granted_change h.granted_asked hnew, h.withdrawn_asked,
    fun k => isInOrder_change h.proper h.sublist hnew ?_⟩
  obtain ⟨key, hkey⟩ := Guard.mem_holders_iff.mp howner
  -- The first that waited has gone over to those that were granted their turn.
  rw [← h.in_order_tail]
  by_cases hk : k = key
  · subst hk
    rw [Guard.holder?_eq_head?, List.head?_eq_some_iff] at hkey
    obtain ⟨rest, hqueue⟩ := hkey
    have hnodup := h.proper_guard.nodup_queue k
    rw [hqueue, List.nodup_cons] at hnodup
    rw [h.proper_guard.queue_release_of_head hqueue, hqueue,
      Guard.gained_tail_append_tail hnodup.1, List.tail_cons]
  · rw [h.proper_guard.queue_release_of_ne (Guard.mem_queue_of_holder? hkey) hk,
      Guard.gained_self, List.nil_append]

theorem IsSound.withdraw (h : l.IsSound) (howner : owner ∈ l.guard.waiting) :
    ({ l with withdrawn := l.withdrawn ++ [owner] }.change (l.guard.release owner)).IsSound := by
  have hnew : (l.guard.release owner).requests.Sublist l.asked :=
    List.filter_sublist.trans h.sublist
  obtain ⟨key, hkey⟩ := Guard.mem_waiting_iff.mp howner
  rw [h.proper_guard.waitingOn_eq_tail] at hkey
  have hqueued := List.mem_of_mem_tail hkey
  refine ⟨h.proper, hnew, mem_asked_of_mem_granted_change h.granted_asked hnew, ?_, fun k =>
    isInOrder_change (l := { l with withdrawn := l.withdrawn ++ [owner] }) h.proper h.sublist
      hnew ?_⟩
  · intro other hother
    rcases List.mem_append.mp hother with hother | hother
    · exact h.withdrawn_asked other hother
    · rw [List.mem_singleton.mp hother]
      exact List.mem_map_of_mem (f := (·.1)) (h.sublist.subset (Guard.mem_queue_iff.mp hqueued))
  -- What has asked and not left loses the owner, and so do those granted and waiting.
  have hleft : (l.askedOn k).filter (· ∉ l.withdrawn ++ [owner]) =
      (l.grantedOn k ++ (l.guard.queue k).tail).filter (· ≠ owner) := by
    rw [h.in_order_tail, List.filter_filter]
    exact List.filter_congr fun other _ => by simp [and_comm]
  change l.grantedOn k ++ _ = (l.askedOn k).filter (· ∉ l.withdrawn ++ [owner])
  rw [hleft]
  by_cases hk : k = key
  · subst hk
    have hnodup : (l.grantedOn k ++ (l.guard.queue k).tail).Nodup := by
      rw [h.in_order_tail]
      exact List.Nodup.filter _ (h.proper.nodup_queue k)
    have hgranted : (l.grantedOn k).filter (· ≠ owner) = l.grantedOn k :=
      filter_ne_of_notMem fun howner => List.disjoint_of_nodup_append hnodup howner hkey
    obtain ⟨first, rest, hqueue⟩ := List.exists_cons_of_ne_nil (List.ne_nil_of_mem hqueued)
    rw [hqueue, List.tail_cons] at hkey
    rw [List.filter_append, hgranted, h.proper_guard.queue_release_of_tail hqueue hkey, hqueue,
      Guard.gained_cons, List.nil_append, List.tail_cons, List.tail_cons]
  · -- On another key the owner is neither granted nor waiting.
    have hother : owner ∉ l.grantedOn k ++ (l.guard.queue k).tail := by
      intro hmem
      rw [h.in_order_tail] at hmem
      exact hk (h.proper.key_unique (List.mem_of_mem_filter hmem)
        (Guard.mem_queue_of_sublist h.sublist hqueued))
    rw [h.proper_guard.queue_release_of_ne hqueued hk, Guard.gained_self, List.nil_append,
      filter_ne_of_notMem hother]

/-! ## All moves -/

theorem IsSound.step (h : l.IsSound) (move : Move α) : (l.step move).IsSound := by
  cases move with
  | acquire owner key =>
    rw [Ledger.step]
    split_ifs with hused
    · exact h
    · exact h.acquire hused key
  | release owner =>
    rw [Ledger.step]
    split_ifs with howner
    · exact h.release howner
    · exact h
  | withdraw owner =>
    rw [Ledger.step]
    split_ifs with howner
    · exact h.withdraw howner
    · exact h

theorem isSound_of (moves : List (Move α)) : (of moves).IsSound := by
  have hempty : IsSound ({} : Ledger α) :=
    ⟨List.nodup_nil, List.Sublist.refl _, by simp, by simp, fun _ => rfl⟩
  exact List.foldlRecOn moves _ hempty fun _ hl move _ => hl.step move

theorem IsSound.isFair (h : l.IsSound) : l.IsFair where
  one_holder key := by
    have hturns : (l.guard.requests.filter fun r => r.2 = key ∧ l.guard.hasTurn r).map (·.1) =
        (l.guard.holder? key).toList := by
      rw [← h.proper_guard.filter_queue, Guard.queue, List.filter_map, List.filter_filter]
      refine congrArg _ (List.filter_congr fun r _ => ?_)
      by_cases hr : r.2 = key <;> simp [hr, Guard.hasTurn]
    rw [← List.length_map (f := (·.1)), hturns]
    cases l.guard.holder? key <;> simp
  no_lost_turn key hwaiting := by
    rw [h.proper_guard.waitingOn_eq_tail] at hwaiting
    rw [Guard.holder?_eq_head?]
    cases hqueue : l.guard.queue key with
    | nil => simp [hqueue] at hwaiting
    | cons first rest => rfl
  isBusy_iff key := by
    rw [Guard.isBusy_iff]
    refine exists_congr fun owner => ?_
    rw [Guard.hasTurn_iff]
    exact ⟨fun h => ⟨Guard.mem_queue_iff.mp (Guard.mem_queue_of_holder? h), h⟩, And.right⟩
  in_order := h.in_order

/-! ## Moves on locks -/

/-- The move is on a key: it asks for the key, or comes from an owner that asked for it. -/
def IsOn (l : Ledger α) (key : RunKey) : Move α → Prop
  | .acquire _ k => k = key
  | .release owner | .withdraw owner => (owner, key) ∈ l.guard.requests

/-- What a move does to the lock of a key. -/
def stepLock (key : RunKey) (lock : Lock α) : Move α → Lock α
  | .acquire owner k => if k = key then lock.acquire owner else lock
  | .release owner => if lock.holder? = some owner then lock.release else lock
  | .withdraw owner => lock.withdraw owner

/-- A move acts on the locks of all keys, unless an owner asks once more. -/
theorem lock_step (h : l.IsSound) (hfresh : ∀ owner k, move = .acquire owner k →
    owner ∉ l.asked.map (·.1)) (key : RunKey) :
    (l.step move).guard.lock key = stepLock key (l.guard.lock key) move := by
  cases move with
  | acquire owner k =>
    have hnew := hfresh owner k rfl
    have hfree : owner ∉ l.guard.requests.map (·.1) := fun howner =>
      hnew ((h.sublist.map (·.1)).subset howner)
    rw [Ledger.step, if_neg hnew]
    simp only [change, stepLock, h.proper_guard.lock_acquire hfree, eq_comm]
  | release owner =>
    rw [Ledger.step]
    split_ifs with howner
    · obtain ⟨k, hk⟩ := Guard.mem_holders_iff.mp howner
      have hkey : (l.guard.lock key).holder? = some owner ↔ key = k := by
        refine ⟨fun h' => ?_, fun h' => h' ▸ hk⟩
        exact h.proper_guard.key_unique (Guard.mem_queue_of_holder? h') (Guard.mem_queue_of_holder? hk)
      simp only [change, stepLock, h.proper_guard.lock_release hk, hkey]
    · exact (if_neg fun hkey => howner (Guard.mem_holders_iff.mpr ⟨key, hkey⟩)).symm
  | withdraw owner =>
    rw [Ledger.step]
    split_ifs with howner
    · obtain ⟨k, hk⟩ := Guard.mem_waiting_iff.mp howner
      simp only [change, stepLock, h.proper_guard.lock_withdraw hk]
      split_ifs with hkey
      · rfl
      · refine (Lock.withdraw_of_notMem fun hmem => hkey ?_).symm
        exact h.proper_guard.key_unique (h.proper_guard.mem_queue_of_mem_waitingOn hmem)
          (h.proper_guard.mem_queue_of_mem_waitingOn hk)
    · exact (Lock.withdraw_of_notMem fun hmem =>
        howner (Guard.mem_waiting_iff.mpr ⟨key, hmem⟩)).symm

/-- A move on one key is nothing to the holder and the queue of another key. -/
theorem lock_step_of_not_isOn (h : l.IsSound) (hother : ¬ l.IsOn key move) :
    (l.step move).guard.lock key = l.guard.lock key := by
  by_cases hfresh : ∀ owner k, move = .acquire owner k → owner ∉ l.asked.map (·.1)
  · rw [lock_step h hfresh]
    cases move with
    | acquire owner k => exact if_neg hother
    | release owner =>
      exact if_neg fun hholder => hother (Guard.mem_queue_iff.mp (Guard.mem_queue_of_holder? hholder))
    | withdraw owner =>
      refine Lock.withdraw_of_notMem fun hmem => hother (Guard.mem_queue_iff.mp ?_)
      exact h.proper_guard.mem_queue_of_mem_waitingOn hmem
  · push Not at hfresh
    obtain ⟨owner, k, rfl, hused⟩ := hfresh
    rw [Ledger.step, if_pos hused]

/-! ## Turns are fair -/

/-- After any sequence of moves, turns are fair and a move on one key is nothing to the
others. So at no moment of a schedule are two runs executed that are both on the project,
or on files whose paths are the same in some spelling. -/
theorem fair_turns (moves : List (Move α)) :
    (of moves).IsFair ∧
      (∀ move key, ¬ (of moves).IsOn key move →
        ((of moves).step move).guard.lock key = (of moves).guard.lock key) ∧
      ∀ (root : Path) (settings : Settings) (store : Store) (events : List Machine.Event),
        let runs := (Machine.afterAll { root, settings, store } events).runs
        ∀ r ∈ runs, ∀ s ∈ runs, r.isExecuting = true → s.isExecuting = true →
          ∀ t u : Option Path, r.target = t.map Path.normalize → s.target = u.map Path.normalize →
            Option.Rel Path.Same t u → r = s := by
  refine ⟨(isSound_of moves).isFair, fun move key => lock_step_of_not_isOn (isSound_of moves), ?_⟩
  intro root settings store events runs r hr s hs hr' hs' t u ht hu hsame
  have hsound := Machine.isSound_afterAll (m := { root, settings, store })
    (Machine.isSound_of_runs_nil rfl) events
  refine hsound.eq_of_key_eq hr hs hr' hs' ?_
  rw [Run.key, Run.key, ht, hu]
  cases hsame with
  | none => rfl
  | some h => simpa [RunKey.ofTarget, Path.Same] using h

end Ledger

end DiagnosticRelay
