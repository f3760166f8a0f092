import DiagnosticRelay.Run.Guard
import Mathlib.Data.List.Basic
import Mathlib.Data.List.Nodup

/-!
# Queues of requests

The requests for one key are a queue: its head has its turn, the others wait. Asking
puts an owner at the end of one queue, and taking a request back removes it from
wherever it stands. If every owner has one request, each key has a fair lock of its
own, and what is done with one lock is nothing to the others.

## Main definitions

* `Guard.queue`, `Guard.waitingOn`: who asks and who waits for a key.
* `Guard.IsProper`: every owner has at most one request.
* `Lock`: a fair lock, with its holder and those that wait in order.
* `Guard.lock`: the lock of a key.

## Main results

* `holder?_eq_head?`, `waitingOn_eq_tail`: turns in terms of the queue.
* `lock_acquire`, `lock_release`, `lock_withdraw`: the moves of a guard are those of
  its locks.
-/

namespace DiagnosticRelay

/-- Owners that are not in a list need not be taken out of it. -/
theorem filter_ne_of_notMem {α : Type} [DecidableEq α] {owner : α} {owners : List α}
    (h : owner ∉ owners) : owners.filter (· ≠ owner) = owners := by
  rw [List.filter_eq_self]
  intro other hother
  have hne : other ≠ owner := fun heq => h (heq ▸ hother)
  simpa using hne

/-! ## Fair locks -/

/-- A lock that goes to those that ask in the order in which they asked. -/
@[ext] structure Lock (α : Type) where
  holder? : Option α := none
  waiting : List α := []

namespace Lock

variable {α : Type} [DecidableEq α]

/-- A free lock is taken at once, a taken one is waited for at the end. -/
def acquire (l : Lock α) (owner : α) : Lock α :=
  match l.holder? with
  | none => { l with holder? := some owner }
  | some _ => { l with waiting := l.waiting ++ [owner] }

/-- The lock goes to the first that waits. -/
def release (l : Lock α) : Lock α := ⟨l.waiting.head?, l.waiting.tail⟩

/-- One that waits leaves. -/
def withdraw (l : Lock α) (owner : α) : Lock α :=
  { l with waiting := l.waiting.filter (· ≠ owner) }

/-- One that does not wait does not leave. -/
theorem withdraw_of_notMem {l : Lock α} {owner : α} (h : owner ∉ l.waiting) :
    l.withdraw owner = l := by
  rw [withdraw, filter_ne_of_notMem h]

end Lock

namespace Guard

variable {α : Type} {g other : Guard α} {owner : α} {key k : RunKey}

/-! ## Queues -/

/-- The owners of the requests for a key, in order. -/
def queue (g : Guard α) (key : RunKey) : List α :=
  (g.requests.filter fun r => r.2 = key).map (·.1)

/-- Every owner has at most one request. -/
def IsProper (g : Guard α) : Prop := (g.requests.map (·.1)).Nodup

theorem mem_queue_iff : owner ∈ g.queue key ↔ (owner, key) ∈ g.requests := by
  simp [queue]

theorem holder?_eq_head? (g : Guard α) (key : RunKey) :
    g.holder? key = (g.queue key).head? := by
  rw [holder?, queue, List.head?_map, List.head?_filter]

theorem isBusy_iff : g.isBusy key = true ↔ ∃ owner, g.holder? key = some owner := by
  rw [isBusy, Option.isSome_iff_exists]

theorem mem_queue_of_holder? (h : g.holder? key = some owner) : owner ∈ g.queue key :=
  List.mem_of_mem_head? (holder?_eq_head? g key ▸ h)

theorem queue_acquire (g : Guard α) (owner : α) (key k : RunKey) :
    (g.acquire owner key).queue k = if k = key then g.queue k ++ [owner] else g.queue k := by
  by_cases h : k = key
  · subst h
    simp [queue, acquire]
  · simp [queue, acquire, h, Ne.symm h]

/-- Who has a turn keeps it while others ask. -/
theorem holder?_acquire (h : g.holder? key = some owner) {other : α} :
    (g.acquire other k).holder? key = some owner := by
  rw [holder?_eq_head?] at h ⊢
  rw [queue_acquire]
  split_ifs
  · rw [List.head?_append, h, Option.some_or]
  · exact h

theorem IsProper.acquire (h : g.IsProper) (hfresh : owner ∉ g.requests.map (·.1)) :
    (g.acquire owner key).IsProper := by
  simp only [IsProper, Guard.acquire, List.map_append, List.map_singleton]
  exact List.nodup_append'.mpr ⟨h, List.nodup_singleton _, by simpa using hfresh⟩

theorem IsProper.nodup_queue (h : g.IsProper) (key : RunKey) : (g.queue key).Nodup :=
  List.Nodup.sublist (List.Sublist.map _ List.filter_sublist) h

theorem IsProper.of_sublist (h : other.IsProper) (hsub : g.requests.Sublist other.requests) :
    g.IsProper :=
  List.Nodup.sublist (hsub.map _) h

theorem mem_queue_of_sublist (hsub : g.requests.Sublist other.requests) (h : owner ∈ g.queue key) :
    owner ∈ other.queue key :=
  mem_queue_iff.mpr (hsub.subset (mem_queue_iff.mp h))

/-- An owner stands in one queue. -/
theorem IsProper.key_unique (h : g.IsProper) (hkey : owner ∈ g.queue key)
    (hk : owner ∈ g.queue k) : key = k := by
  rw [mem_queue_iff] at hkey hk
  exact congrArg (·.2) (List.inj_on_of_nodup_map h hkey hk rfl)

variable [DecidableEq α]

/-- The owners that wait for a key, in order. -/
def waitingOn (g : Guard α) (key : RunKey) : List α :=
  (g.requests.filter fun r => r.2 = key ∧ !g.hasTurn r).map (·.1)

/-- The lock of a key. -/
def lock (g : Guard α) (key : RunKey) : Lock α := ⟨g.holder? key, g.waitingOn key⟩

theorem hasTurn_iff (g : Guard α) (owner : α) (key : RunKey) :
    g.hasTurn (owner, key) = true ↔ g.holder? key = some owner := by
  rw [hasTurn, decide_eq_true_iff]

theorem queue_release (g : Guard α) (owner : α) (key : RunKey) :
    (g.release owner).queue key = (g.queue key).filter (· ≠ owner) := by
  rw [queue, queue, release, List.filter_map, List.filter_filter, List.filter_filter]
  exact congrArg _ (List.filter_congr fun r _ => Bool.and_comm _ _)

/-- Who has a turn keeps it while others take back their requests. -/
theorem holder?_release (h : g.holder? key = some owner) {other : α} (hne : owner ≠ other) :
    (g.release other).holder? key = some owner := by
  rw [holder?_eq_head?, List.head?_eq_some_iff] at h
  obtain ⟨rest, hqueue⟩ := h
  rw [holder?_eq_head?, queue_release, hqueue, List.filter_cons_of_pos (by simpa using hne),
    List.head?_cons]

namespace IsProper

theorem release (h : g.IsProper) (owner : α) : (g.release owner).IsProper :=
  List.Nodup.sublist (List.Sublist.map _ List.filter_sublist) h

/-- All but the head of a queue wait. -/
theorem waitingOn_eq_tail (h : g.IsProper) (key : RunKey) :
    g.waitingOn key = (g.queue key).tail := by
  -- Waiting is not having one's turn, and that is not being the head.
  have hwaiting : g.waitingOn key =
      (g.queue key).filter fun owner => g.holder? key ≠ some owner := by
    rw [waitingOn, queue, List.filter_map, List.filter_filter]
    refine congrArg _ (List.filter_congr fun r _ => ?_)
    by_cases hr : r.2 = key <;> simp [hr, hasTurn]
  have hnodup := h.nodup_queue key
  rw [hwaiting, holder?_eq_head?]
  cases hqueue : g.queue key with
  | nil => rfl
  | cons first rest =>
    rw [hqueue, List.nodup_cons] at hnodup
    have hrest : ∀ owner ∈ rest, ¬ first = owner := fun owner howner heq =>
      hnodup.1 (heq ▸ howner)
    simpa [List.filter_cons, List.filter_eq_self] using hrest

theorem mem_queue_of_mem_waitingOn (h : g.IsProper) (howner : owner ∈ g.waitingOn key) :
    owner ∈ g.queue key :=
  List.mem_of_mem_tail (h.waitingOn_eq_tail key ▸ howner)

theorem lock_eq (h : g.IsProper) (key : RunKey) :
    g.lock key = ⟨(g.queue key).head?, (g.queue key).tail⟩ := by
  rw [lock, holder?_eq_head?, h.waitingOn_eq_tail]

/-! ## Moves on locks -/

theorem lock_acquire (h : g.IsProper) (hfresh : owner ∉ g.requests.map (·.1)) (key k : RunKey) :
    (g.acquire owner key).lock k = if k = key then (g.lock k).acquire owner else g.lock k := by
  rw [(h.acquire hfresh).lock_eq, h.lock_eq, queue_acquire]
  split_ifs
  · cases g.queue k <;> rfl
  · rfl

/-- A request that is taken back leaves no queue but its own. -/
theorem queue_release_of_ne (h : g.IsProper) (hkey : owner ∈ g.queue key) (hne : k ≠ key) :
    (g.release owner).queue k = g.queue k := by
  rw [queue_release, filter_ne_of_notMem fun howner => hne (h.key_unique howner hkey)]

/-- The queue behind a head that takes its request back. -/
theorem queue_release_of_head (h : g.IsProper) {rest : List α}
    (hqueue : g.queue key = owner :: rest) : (g.release owner).queue key = rest := by
  have hnodup := h.nodup_queue key
  rw [hqueue, List.nodup_cons] at hnodup
  rw [queue_release, hqueue, List.filter_cons_of_neg (by simp), filter_ne_of_notMem hnodup.1]

/-- The queue from which one takes its request back that is not the head. -/
theorem queue_release_of_tail (h : g.IsProper) {first : α} {rest : List α}
    (hqueue : g.queue key = first :: rest) (howner : owner ∈ rest) :
    (g.release owner).queue key = first :: rest.filter (· ≠ owner) := by
  have hnodup := h.nodup_queue key
  rw [hqueue, List.nodup_cons] at hnodup
  have hne : first ≠ owner := fun heq => hnodup.1 (heq ▸ howner)
  rw [queue_release, hqueue, List.filter_cons_of_pos (by simpa using hne)]

/-- Taking back the request that has its turn releases the lock. -/
theorem lock_release (h : g.IsProper) (hholder : g.holder? key = some owner) (k : RunKey) :
    (g.release owner).lock k = if k = key then (g.lock k).release else g.lock k := by
  rw [(h.release owner).lock_eq, h.lock_eq]
  -- The queue of the key loses its head, the others lose nothing.
  split_ifs with hk
  · subst hk
    rw [holder?_eq_head?, List.head?_eq_some_iff] at hholder
    obtain ⟨rest, hqueue⟩ := hholder
    rw [h.queue_release_of_head hqueue, hqueue]
    rfl
  · rw [h.queue_release_of_ne (mem_queue_of_holder? hholder) hk]

/-- Taking back a request that waits leaves the lock with its holder. -/
theorem lock_withdraw (h : g.IsProper) (hwaiting : owner ∈ g.waitingOn key) (k : RunKey) :
    (g.release owner).lock k = if k = key then (g.lock k).withdraw owner else g.lock k := by
  rw [h.waitingOn_eq_tail] at hwaiting
  rw [(h.release owner).lock_eq, h.lock_eq]
  split_ifs with hk
  · subst hk
    cases hqueue : g.queue k with
    | nil => simp [hqueue] at hwaiting
    | cons first rest =>
      rw [hqueue] at hwaiting
      rw [h.queue_release_of_tail hqueue hwaiting]
      rfl
  · rw [h.queue_release_of_ne (List.mem_of_mem_tail hwaiting) hk]

end IsProper

end Guard

end DiagnosticRelay
