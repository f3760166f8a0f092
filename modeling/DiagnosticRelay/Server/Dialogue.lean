import DiagnosticRelay.Path.Basic
import DiagnosticRelay.Run.Outcome
import DiagnosticRelay.Server.Message

/-!
# Dialogues

What the server does in answer to a call is a dialogue: a tree of notices,
queries and executions, which goes on with what it gets back. A dialogue is
plain data; who stands on the other side is settled later.

## Main definitions

* `Dialogue`: the tree.
* `Dialogue.Course`: the courses that a dialogue can take.
* `Dialogue.converse`: the course that a dialogue takes with a given host.
* `Dialogue.withheld`, `Dialogue.silenced`: a dialogue with an editor that does
  not listen.

## Main results

* `Dialogue.Course.append`: courses go on after one another.
* `Dialogue.exists_course`: with a host a dialogue takes one of its courses.
-/

namespace DiagnosticRelay

/-- What is said and done until there is a result. -/
inductive Dialogue (α : Type) where
  | done (result : α)
  /-- Tells the editor something. -/
  | tell (notice : Notice) (next : Dialogue α)
  /-- Asks the editor for something. -/
  | ask (query : Query) (next : Reply → Dialogue α)
  /-- Runs a command line in a directory. -/
  | execute (commandLine : String) (directory : Path) (next : Execution → Dialogue α)
  /-- Looks up the settings that a workspace has in its files. -/
  | consult (root : Path) (next : Settings → Dialogue α)

namespace Dialogue

variable {α β : Type}

/-- A dialogue and what follows from its result. -/
def bind (d : Dialogue α) (f : α → Dialogue β) : Dialogue β :=
  match d with
  | .done a => f a
  | .tell n next => .tell n (next.bind f)
  | .ask q next => .ask q fun r => (next r).bind f
  | .execute c p next => .execute c p fun e => (next e).bind f
  | .consult p next => .consult p fun s => (next s).bind f

instance : Monad Dialogue where
  pure := .done
  bind := bind

/-- Tells the editor several things. -/
def tellAll (notices : List Notice) : Dialogue Unit :=
  notices.foldr .tell (.done ())

/-- Tells the editor one thing. -/
def telling (notice : Notice) : Dialogue Unit := .tell notice (.done ())

/-- Asks the editor for something, for its reply. -/
def asking (query : Query) : Dialogue Reply := .ask query .done

/-- Runs a command line in a directory, for what becomes of it. -/
def executing (commandLine : String) (directory : Path) : Dialogue Execution :=
  .execute commandLine directory .done

/-- Looks up the settings of a workspace. -/
def consulting (root : Path) : Dialogue Settings := .consult root .done

/-! ## Courses -/

/-- One step of a course: what was said or done, and what came back. -/
inductive Step where
  | told (notice : Notice)
  | asked (query : Query) (reply : Reply)
  | executed (commandLine : String) (directory : Path) (execution : Execution)
  | consulted (root : Path) (settings : Settings)

/-- The courses that a dialogue can take, each with its result. -/
inductive Course : Dialogue α → List Step → α → Prop where
  | done (a : α) : Course (.done a) [] a
  | tell {n : Notice} {next : Dialogue α} {steps : List Step} {a : α} :
      Course next steps a → Course (.tell n next) (.told n :: steps) a
  | ask {q : Query} {next : Reply → Dialogue α} {steps : List Step} {a : α} (r : Reply) :
      Course (next r) steps a → Course (.ask q next) (.asked q r :: steps) a
  | execute {c : String} {p : Path} {next : Execution → Dialogue α} {steps : List Step} {a : α}
      (e : Execution) :
      Course (next e) steps a → Course (.execute c p next) (.executed c p e :: steps) a
  | consult {p : Path} {next : Settings → Dialogue α} {steps : List Step} {a : α} (s : Settings) :
      Course (next s) steps a → Course (.consult p next) (.consulted p s :: steps) a

/-- What the editor hears in a step. -/
def Step.message? : Step → Option Message
  | .told n => some (.notice n)
  | .asked q _ => some (.query q)
  | .executed .. | .consulted .. => none

/-- The other side of dialogues, with a state of its own. -/
structure Host (σ : Type) where
  settings : σ → Path → Settings
  reply : σ → Query → Reply
  execute : σ → String → Path → Execution × σ

/-- A dialogue that has taken its course. -/
structure Held (σ α : Type) where
  result : α
  host : σ
  messages : List Message

/-- A held dialogue with a message before it. -/
def Held.after {σ α : Type} (m : Message) (h : Held σ α) : Held σ α :=
  { h with messages := m :: h.messages }

/-- The course that a dialogue takes with a host. -/
def converse {σ : Type} (host : Host σ) (s : σ) : Dialogue α → Held σ α
  | .done a => ⟨a, s, []⟩
  | .tell n next => (next.converse host s).after (.notice n)
  | .ask q next => ((next (host.reply s q)).converse host s).after (.query q)
  | .execute c p next =>
    let r := host.execute s c p
    (next r.1).converse host r.2
  | .consult p next => (next (host.settings s p)).converse host s

/-! ## Laws -/

/-- A dialogue takes a course and then what follows from its result takes one. -/
theorem Course.append {d : Dialogue α} {f : α → Dialogue β} {xs ys : List Step} {a : α} {b : β}
    (first : Course d xs a) (second : Course (f a) ys b) : Course (d.bind f) (xs ++ ys) b := by
  induction first with
  | done a => exact second
  | tell _ ih => exact .tell (ih second)
  | ask r _ ih => exact .ask r (ih second)
  | execute e _ ih => exact .execute e (ih second)
  | consult s _ ih => exact .consult s (ih second)

/-- With a host, every dialogue takes one of its courses, and the messages are
those of the course. -/
theorem exists_course {σ : Type} (host : Host σ) (s : σ) (d : Dialogue α) :
    ∃ steps, Course d steps (d.converse host s).result ∧
      (d.converse host s).messages = steps.filterMap Step.message? := by
  induction d generalizing s with
  | done a => exact ⟨[], .done a, rfl⟩
  | tell n next ih =>
    obtain ⟨steps, course, messages⟩ := ih s
    exact ⟨.told n :: steps, .tell course, by simp [converse, Held.after, Step.message?, messages]⟩
  | ask q next ih =>
    obtain ⟨steps, course, messages⟩ := ih (host.reply s q) s
    exact ⟨.asked q (host.reply s q) :: steps, .ask _ course,
      by simp [converse, Held.after, Step.message?, messages]⟩
  | execute c p next ih =>
    obtain ⟨steps, course, messages⟩ := ih (host.execute s c p).1 (host.execute s c p).2
    exact ⟨.executed c p (host.execute s c p).1 :: steps, .execute _ course,
      by simp [converse, Step.message?, messages, List.filterMap_cons]⟩
  | consult p next ih =>
    obtain ⟨steps, course, messages⟩ := ih (host.settings s p) s
    exact ⟨.consulted p (host.settings s p) :: steps, .consult _ course,
      by simp [converse, Step.message?, messages, List.filterMap_cons]⟩

/-! ## Editors that do not listen -/

/-- Whether a notice may come before the editor and the server know each other. -/
def isEarly : Notice → Bool
  | .show .. | .log .. => true
  | .publish .. | .beginWork .. | .endWork .. => false

/-- The dialogue with an editor that the server does not know yet: only texts
reach it, and queries are refused without being put. -/
def withheld : Dialogue α → Dialogue α
  | .done a => .done a
  | .tell n next => if isEarly n then .tell n next.withheld else next.withheld
  | .ask _ next => (next .refusal).withheld
  | .execute c p next => .execute c p fun e => (next e).withheld
  | .consult p next => .consult p fun s => (next s).withheld

/-- The dialogue with an editor that has left. -/
def silenced : Dialogue α → Dialogue α
  | .done a => .done a
  | .tell _ next => next.silenced
  | .ask _ next => (next .refusal).silenced
  | .execute c p next => .execute c p fun e => (next e).silenced
  | .consult p next => .consult p fun s => (next s).silenced

end Dialogue

end DiagnosticRelay
