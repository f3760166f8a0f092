import DiagnosticRelay.Proofs.List.Last
import DiagnosticRelay.Settings.Channel
import DiagnosticRelay.Settings.Overlay
import Mathlib.Tactic.Common

/-!
# News of settings

The settings in force are those that were put in force last, and every receiver has news
exactly if they have changed since it looked last. Changes are counted and not compared:
settings that have changed and changed back are news, settings that were put in force over
the same settings are not, and neither matters what other receivers have seen.

## Main definitions

* `Channel.Op`, `Channel.Entry`: the steps of a channel, and steps with what was before.
* `Channel.after`, `Channel.log`: the channel after steps, and their log.
* `Channel.Informs`: what is promised of a channel after steps.

## Main results

* `Channel.Entry.outcome`: what a step does.
* `Channel.exists_lastLook`: how a receiver has looked, and what it saw.
* `Channel.informs_after`: channels inform their receivers.
-/

namespace DiagnosticRelay

open Json (Value Misfit)

namespace Channel

variable {c : Channel} {s : Settings} {i v : Nat}

/-! ## Putting settings in force -/

@[simp] theorem current_replace (c : Channel) (settings : Settings) :
    (c.replace settings).current = settings := by
  rw [replace]
  split_ifs with h
  · exact h
  · rfl

@[simp] theorem seen_replace (c : Channel) (settings : Settings) :
    (c.replace settings).seen = c.seen := by
  rw [replace]
  split_ifs <;> rfl

theorem isChange_iff : c.isChange s = true ↔ s ≠ c.current := by
  rw [isChange, bne_iff_ne, ne_comm]

/-- Only a change counts. -/
theorem version_replace (c : Channel) (s : Settings) :
    (c.replace s).version = if c.isChange s = true then c.version + 1 else c.version := by
  rw [replace]
  by_cases h : c.current = s
  · rw [if_pos h, if_neg (by simp [isChange_iff, h])]
  · rw [if_neg h, if_pos (isChange_iff.mpr (Ne.symm h))]

/-! ## Receivers -/

@[simp] theorem current_subscribe (c : Channel) : c.subscribe.current = c.current := rfl

@[simp] theorem version_subscribe (c : Channel) : c.subscribe.version = c.version := rfl

@[simp] theorem seen_subscribe (c : Channel) : c.subscribe.seen = c.seen ++ [c.version] := rfl

@[simp] theorem current_read (c : Channel) (i : Nat) : (c.read i).current = c.current := rfl

@[simp] theorem version_read (c : Channel) (i : Nat) : (c.read i).version = c.version := rfl

@[simp] theorem seen_read (c : Channel) (i : Nat) : (c.read i).seen = c.seen.set i c.version := rfl

/-! ## Steps -/

/-- A step of a channel. -/
inductive Op where
  | replace (s : Settings)
  /-- A value of the editor is laid over the settings in force, and what comes of it is put
  in force. -/
  | adopt (v : Value)
  | subscribe
  | read (receiver : Nat)

/-- Whether a step brings a further receiver. -/
def Op.isSubscription : Op → Bool
  | .subscribe => true
  | _ => false

/-- The settings that a step is about to put in force, if any. -/
def argument? (c : Channel) : Op → Option Settings
  | .replace s => some s
  | .adopt v => (c.current.withValue v).toOption
  | .subscribe | .read _ => none

/-- A channel after a step. -/
def step (c : Channel) : Op → Channel
  | .replace s => c.replace s
  | .adopt v =>
    match c.current.withValue v with
    | .ok s => c.replace s
    | .error _ => c
  | .subscribe => c.subscribe
  | .read receiver => c.read receiver

/-- What is answered to a step. -/
inductive Answer where
  /-- Whether anything changed. -/
  | replaced (changed : Bool)
  | rejected (m : Misfit)
  | receiver (number : Nat)
  | settings (s : Settings)

/-- The answer to a step. -/
def answer (c : Channel) : Op → Answer
  | .replace s => .replaced (c.isChange s)
  | .adopt v =>
    match c.current.withValue v with
    | .ok s => .replaced (c.isChange s)
    | .error m => .rejected m
  | .subscribe => .receiver c.seen.length
  | .read _ => .settings c.current

/-- A step and the channel before it. -/
structure Entry where
  before : Channel
  op : Op

namespace Entry

/-- The settings that are about to be put in force, if any. -/
def argument? (e : Entry) : Option Settings := e.before.argument? e.op

/-- The channel after the step. -/
def afterwards (e : Entry) : Channel := e.before.step e.op

/-- Settings are put in force, and it is answered that something changed. -/
def Changes (e : Entry) : Prop := e.before.answer e.op = .replaced true

/-- A receiver looks: it comes up, or it reads. -/
def Looks (i : Nat) (e : Entry) : Prop :=
  e.op = .subscribe ∧ i = e.before.seen.length ∨ e.op = .read i ∧ i < e.before.seen.length

variable {e : Entry}

/-- What a step does. -/
inductive Outcome (e : Entry) : Prop where
  | puts (s : Settings) (argument : e.argument? = some s)
    (answer : e.before.answer e.op = .replaced (e.before.isChange s))
    (after : e.afterwards = e.before.replace s) (same : e.op.isSubscription = false)
    (looks : ∀ i, ¬ e.Looks i)
  | rejects (m : Misfit) (argument : e.argument? = none)
    (answer : e.before.answer e.op = .rejected m) (after : e.afterwards = e.before)
    (same : e.op.isSubscription = false) (looks : ∀ i, ¬ e.Looks i)
  | subscribes (op : e.op = .subscribe) (after : e.afterwards = e.before.subscribe)
    (looks : ∀ i, e.Looks i ↔ i = e.before.seen.length)
  | reads (r : Nat) (op : e.op = .read r) (after : e.afterwards = e.before.read r)
    (looks : ∀ i, e.Looks i ↔ r = i ∧ i < e.before.seen.length)

theorem outcome (e : Entry) : e.Outcome := by
  obtain ⟨c, op⟩ := e
  cases op with
  | replace s => exact .puts s rfl rfl rfl rfl fun i => by simp [Looks]
  | adopt v =>
    cases hv : c.current.withValue v with
    | ok s =>
      refine .puts s ?_ ?_ ?_ rfl fun i => by simp [Looks]
      · simp [argument?, Channel.argument?, hv, Except.toOption]
      · simp [answer, hv]
      · simp [afterwards, step, hv]
    | error m =>
      refine .rejects m ?_ ?_ ?_ rfl fun i => by simp [Looks]
      · simp [argument?, Channel.argument?, hv, Except.toOption]
      · simp [answer, hv]
      · simp [afterwards, step, hv]
  | subscribe => exact .subscribes rfl rfl fun i => by simp [Looks]
  | read r => exact .reads r rfl rfl fun i => by simp [Looks]

/-- What a step is about to put in force is in force after it. -/
theorem current_afterwards (e : Entry) :
    e.afterwards.current = e.argument?.getD e.before.current := by
  cases e.outcome with
  | puts s harg _ hafter => rw [hafter, harg, current_replace, Option.getD_some]
  | rejects m harg _ hafter => rw [hafter, harg, Option.getD_none]
  | subscribes hop hafter => simp [hafter, argument?, Channel.argument?, hop]
  | reads r hop hafter => simp [hafter, argument?, Channel.argument?, hop]

/-- The count goes up with a change, and stays without one. -/
theorem version_afterwards (e : Entry) : e.Changes ∧ e.afterwards.version = e.before.version + 1 ∨
    ¬ e.Changes ∧ e.afterwards.version = e.before.version := by
  rw [Changes]
  cases e.outcome with
  | puts s _ hanswer hafter =>
    rw [hanswer, hafter, version_replace]
    cases e.before.isChange s <;> simp
  | rejects m _ hanswer hafter => exact .inr ⟨by simp [hanswer], by rw [hafter]⟩
  | subscribes hop hafter => exact .inr ⟨by simp [hop, answer], by simp [hafter]⟩
  | reads r hop hafter => exact .inr ⟨by simp [hop, answer], by simp [hafter]⟩

/-- A subscription brings one more receiver. -/
theorem length_seen_afterwards (e : Entry) : e.afterwards.seen.length =
    e.before.seen.length + if e.op.isSubscription = true then 1 else 0 := by
  cases e.outcome with
  | puts _ _ _ hafter hsame => simp [hafter, hsame]
  | rejects _ _ _ hafter hsame => simp [hafter, hsame]
  | subscribes hop hafter => simp [hafter, hop, Op.isSubscription]
  | reads _ hop hafter => simp [hafter, hop, Op.isSubscription]

/-- A receiver that looks has seen all that there is. -/
theorem seen?_afterwards_of_looks (h : e.Looks i) :
    e.afterwards.seen[i]? = some e.afterwards.version := by
  cases e.outcome with
  | puts _ _ _ _ _ hlooks => exact absurd h (hlooks i)
  | rejects _ _ _ _ _ hlooks => exact absurd h (hlooks i)
  | subscribes _ hafter hlooks =>
    obtain rfl := (hlooks i).mp h
    rw [hafter]
    exact List.getElem?_concat_length
  | reads r _ hafter hlooks =>
    obtain ⟨rfl, hi⟩ := (hlooks i).mp h
    rw [hafter]
    exact List.getElem?_set_self hi

/-- What a receiver has seen stays the same until it looks. -/
theorem seen?_afterwards_of_not_looks (h : ¬ e.Looks i) :
    e.afterwards.seen[i]? = e.before.seen[i]? := by
  cases e.outcome with
  | puts _ _ _ hafter => rw [hafter, seen_replace]
  | rejects _ _ _ hafter => rw [hafter]
  | subscribes _ hafter hlooks =>
    rw [hafter, seen_subscribe]
    have hne : i ≠ e.before.seen.length := fun hi => h ((hlooks i).mpr hi)
    rcases Nat.lt_or_gt_of_ne hne with hlt | hgt
    · rw [List.getElem?_append_left hlt]
    · rw [List.getElem?_eq_none (by simp; omega), List.getElem?_eq_none (by omega)]
  | reads r _ hafter hlooks =>
    rw [hafter, seen_read]
    by_cases hr : r = i
    · have hout : ¬ i < e.before.seen.length := fun hi => h ((hlooks i).mpr ⟨hr, hi⟩)
      rw [hr, List.set_eq_of_length_le (Nat.le_of_not_lt hout)]
    · exact List.getElem?_set_ne hr

end Entry

/-! ## Steps one after another -/

/-- The channel after steps, with some settings at first. -/
def after (initial : Settings) (ops : List Op) : Channel := ops.foldl step { current := initial }

/-- Steps from a channel on, each with the channel before it. -/
def logFrom (c : Channel) : List Op → List Entry
  | [] => []
  | op :: rest => ⟨c, op⟩ :: logFrom (c.step op) rest

/-- The log of steps, with some settings at first. -/
def log (initial : Settings) (ops : List Op) : List Entry := logFrom { current := initial } ops

variable {initial : Settings} {ops : List Op}

theorem logFrom_concat (c : Channel) (ops : List Op) (op : Op) :
    logFrom c (ops ++ [op]) = logFrom c ops ++ [⟨ops.foldl step c, op⟩] := by
  induction ops generalizing c with
  | nil => rfl
  | cons first rest ih => exact congrArg _ (ih (c.step first))

theorem log_concat (initial : Settings) (ops : List Op) (op : Op) :
    log initial (ops ++ [op]) = log initial ops ++ [⟨after initial ops, op⟩] :=
  logFrom_concat _ ops op

theorem after_concat_eq_afterwards (initial : Settings) (ops : List Op) (op : Op) :
    after initial (ops ++ [op]) = (Entry.mk (after initial ops) op).afterwards := by
  rw [after, List.foldl_append]
  rfl

/-- The settings in force are those that were put in force last, or those at first. -/
theorem current_after (initial : Settings) (ops : List Op) :
    (∃ e, IsLast (fun e => e.argument?.isSome = true) (log initial ops) e ∧
      e.argument? = some (after initial ops).current) ∨
    (∀ e ∈ log initial ops, ¬ e.argument?.isSome = true) ∧
      (after initial ops).current = initial := by
  -- The last step decides, if it puts settings in force; otherwise the steps before it do.
  induction ops using List.reverseRecOn with
  | nil => exact .inr ⟨by simp [log, logFrom], rfl⟩
  | append_singleton ops op ih =>
    rw [log_concat, after_concat_eq_afterwards, Entry.current_afterwards]
    cases harg : (Entry.mk (after initial ops) op).argument? with
    | some s => exact .inl ⟨_, isLast_concat (by rw [harg]; rfl), harg⟩
    | none =>
      have hnone : ¬ (Entry.mk (after initial ops) op).argument?.isSome = true := by simp [harg]
      exact ih.imp (fun ⟨e, hlast, he⟩ => ⟨e, hlast.concat hnone, he⟩)
        fun ⟨hall, heq⟩ => ⟨forall_not_concat hall hnone, heq⟩

/-- There are as many receivers as have come up. -/
theorem length_seen_after (initial : Settings) (ops : List Op) :
    (after initial ops).seen.length = ops.countP Op.isSubscription := by
  induction ops using List.reverseRecOn with
  | nil => rfl
  | append_singleton ops op ih =>
    rw [after_concat_eq_afterwards, Entry.length_seen_afterwards, List.countP_append,
      List.countP_singleton, ← ih]

/-- A receiver has looked, and not since. It has seen the current count exactly if nothing
has changed since. -/
theorem exists_lastLook (h : (after initial ops).seen[i]? = some v) :
    v ≤ (after initial ops).version ∧
      ∃ earlier look later, log initial ops = earlier ++ look :: later ∧ look.Looks i ∧
        (∀ e ∈ later, ¬ e.Looks i) ∧
        (v ≠ (after initial ops).version ↔ ∃ e ∈ later, e.Changes) := by
  -- That the version is never behind what was seen carries the induction: a change makes it
  -- different from what was seen, whatever was different before.
  induction ops using List.reverseRecOn generalizing v with
  | nil => cases h
  | append_singleton ops op ih =>
    rw [after_concat_eq_afterwards] at h ⊢
    rw [log_concat]
    generalize he : Entry.mk (after initial ops) op = e at h ⊢
    have hbefore : e.before = after initial ops := he ▸ rfl
    by_cases hlooks : e.Looks i
    · -- It looks now, and nothing comes later.
      obtain rfl := Option.some.inj ((Entry.seen?_afterwards_of_looks hlooks).symm.trans h)
      exact ⟨Nat.le_refl _, log initial ops, e, [], rfl, hlooks, by simp, by simp⟩
    · rw [Entry.seen?_afterwards_of_not_looks hlooks, hbefore] at h
      obtain ⟨hle, earlier, look, later, hlog, hlook, hlater, hiff⟩ := ih h
      have hsplit : log initial ops ++ [e] = earlier ++ look :: (later ++ [e]) := by
        rw [hlog, List.append_assoc, List.cons_append]
      have hnot := forall_not_concat hlater hlooks
      rcases e.version_afterwards with ⟨hchanges, hversion⟩ | ⟨hchanges, hversion⟩
      · rw [hversion, hbefore]
        refine ⟨by omega, earlier, look, later ++ [e], hsplit, hlook, hnot, ?_⟩
        exact iff_of_true (by omega) ⟨e, by simp, hchanges⟩
      · rw [hversion, hbefore]
        refine ⟨hle, earlier, look, later ++ [e], hsplit, hlook, hnot, hiff.trans ?_⟩
        simp [or_and_right, exists_or, hchanges]

/-! ## What is promised -/

/-- What is promised of a channel with some settings at first, after steps. -/
structure Informs (initial : Settings) (ops : List Op) : Prop where
  /-- The settings in force are those that were put in force last, or those at first. -/
  current : (∃ e, IsLast (fun e => e.argument?.isSome = true) (log initial ops) e ∧
      e.argument? = some (after initial ops).current) ∨
    (∀ e ∈ log initial ops, ¬ e.argument?.isSome = true) ∧ (after initial ops).current = initial
  /-- Putting settings in force is answered by whether they are other ones. -/
  replaced : ∀ e ∈ log initial ops, ∀ s, e.argument? = some s →
    ∃ changed, e.before.answer e.op = .replaced changed ∧
      (changed = true ↔ s ≠ e.before.current)
  /-- A value that does not fit changes nothing. -/
  rejected : ∀ e ∈ log initial ops, ∀ m, e.before.answer e.op = .rejected m →
    e.afterwards = e.before
  /-- A receiver reads the settings in force. -/
  read : ∀ e ∈ log initial ops, ∀ r, e.op = .read r →
    e.before.answer e.op = .settings e.before.current ∧ e.afterwards.current = e.before.current
  length_news : (after initial ops).news.length = ops.countP Op.isSubscription
  /-- A receiver has news exactly if something has changed since it looked last. -/
  news : ∀ i < (after initial ops).news.length, ∃ earlier look later,
    log initial ops = earlier ++ look :: later ∧ look.Looks i ∧ (∀ e ∈ later, ¬ e.Looks i) ∧
      ((after initial ops).news[i]? = some true ↔ ∃ e ∈ later, e.Changes)

/-- Channels inform their receivers, whatever the steps are. -/
theorem informs_after (initial : Settings) (ops : List Op) : Informs initial ops where
  current := current_after initial ops
  replaced e _ s h := by
    cases e.outcome with
    | puts t hargument hanswer =>
      obtain rfl := Option.some.inj (hargument.symm.trans h)
      exact ⟨_, hanswer, isChange_iff⟩
    | rejects m hargument => simp [hargument] at h
    | subscribes hop => simp [Entry.argument?, argument?, hop] at h
    | reads r hop => simp [Entry.argument?, argument?, hop] at h
  rejected e _ m h := by
    cases e.outcome with
    | puts t _ hanswer => simp [hanswer] at h
    | rejects _ _ _ hafter => exact hafter
    | subscribes hop => simp [hop, answer] at h
    | reads r hop => simp [hop, answer] at h
  read e _ r h := by
    obtain ⟨c, op⟩ := e
    obtain rfl : op = .read r := h
    exact ⟨rfl, rfl⟩
  length_news := by rw [Channel.news, List.length_map, length_seen_after]
  news i hi := by
    rw [Channel.news, List.length_map] at hi
    have hseen := List.getElem?_eq_getElem hi
    obtain ⟨-, earlier, look, later, hlog, hlook, hlater, hiff⟩ := exists_lastLook hseen
    refine ⟨earlier, look, later, hlog, hlook, hlater, Iff.trans ?_ hiff⟩
    rw [Channel.news, List.getElem?_map, hseen, Option.map_some, Option.some.injEq, isNews,
      bne_iff_ne]

/-- Settings that have changed and changed back are news. -/
example : (after {} [.subscribe, .replace { phpCommand := "" }, .replace {}]).news = [true] := by
  decide

end Channel

end DiagnosticRelay
