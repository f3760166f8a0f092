import DiagnosticRelay.Path.Basic

/-!
# One run at a time

Runs with the same key take turns. The guard is nothing but the requests in the
order in which they were made: the first request of a key holds it, the others
wait.

## Main definitions

* `RunKey`: what a run covers.
* `Guard`: the requests.
* `Guard.holder?`, `Guard.waiting`: who has a turn and who has not.
-/

namespace DiagnosticRelay

/-- What a run covers. A file is known by the components of its path. -/
inductive RunKey where
  | project
  | file (components : List Path.Component)
  deriving DecidableEq, Repr

/-- The key of a run on a target. -/
def RunKey.ofTarget : Option Path → RunKey
  | none => .project
  | some p => .file p.components

/-- The requests for turns, in the order in which they were made. -/
structure Guard (α : Type) where
  requests : List (α × RunKey) := []
  deriving Repr

namespace Guard

variable {α : Type} [DecidableEq α]

/-- Asks for a turn on a key. -/
def acquire (g : Guard α) (owner : α) (key : RunKey) : Guard α :=
  ⟨g.requests ++ [(owner, key)]⟩

/-- Takes back the request of an owner, who may hold the key or wait for it. -/
def release (g : Guard α) (owner : α) : Guard α :=
  ⟨g.requests.filter fun r => r.1 ≠ owner⟩

/-- Who holds a key. -/
def holder? (g : Guard α) (key : RunKey) : Option α :=
  (g.requests.find? fun r => r.2 = key).map (·.1)

/-- Whether a key is held. -/
def isBusy (g : Guard α) (key : RunKey) : Bool := (g.holder? key).isSome

/-- Whether a request has its turn. -/
def hasTurn (g : Guard α) (request : α × RunKey) : Bool := g.holder? request.2 = some request.1

/-- The owners that have their turn, in the order of their requests. -/
def holders (g : Guard α) : List α := (g.requests.filter g.hasTurn).map (·.1)

/-- The owners that wait for their turn, in the order of their requests. -/
def waiting (g : Guard α) : List α := (g.requests.filter fun r => !g.hasTurn r).map (·.1)

/-- The owners that have their turn now and did not have it before. -/
def granted (before after : Guard α) : List α :=
  after.holders.filter fun owner => !before.holders.contains owner

end Guard

end DiagnosticRelay
