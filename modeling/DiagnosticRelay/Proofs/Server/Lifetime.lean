import DiagnosticRelay.Proofs.Except.Ok
import DiagnosticRelay.Proofs.Server.Calls

/-!
# Calls as they come in

An editor may call for anything at any time. Before it is greeted the server has no
session, and it is greeted only once: after that a greeting is refused. So whatever
comes in, a session is opened by one greeting and then only changed by the orders that
are carried out in it.

## Main definitions

* `Server.IsTimely`: the phase says whether there is a session.
* `Server.Receives`: calls come in one after another.
* `Server.Opens`, `Server.Performs`: what a call can do.

## Main results

* `Server.course_receive`: what a call does.
* `Server.Receives.cases`: what holds of a session as long as calls come in.
-/

namespace DiagnosticRelay

open Dialogue (Course Step)

/-- A call is a greeting that says what the editor can do. -/
def Call.Announces (call : Call) (abilities : Abilities) : Prop :=
  Method.ofName? call.method = some .greet ∧ ∃ greeting,
    Order.ofParams call.params .greet = .ok (.greet greeting) ∧ greeting.abilities = abilities

/-- The session of a workspace when it is opened. -/
def Session.opened (root : Path) (abilities : Abilities) (fileSettings : Settings) : Session :=
  { root, fileSettings, abilities, channel := ({} : Channel).replace fileSettings }

namespace Server

variable {s t : Server} {call : Call} {steps : List Step} {answer : Answer} {method : Method}
  {order : Order}

/-- A server that was not greeted has no session, and one that works has one. -/
def IsTimely (s : Server) : Prop :=
  match s.phase with
  | .fresh => s.session = none
  | .working => s.session.isSome = true
  | .shutDown | .exited => True

/-- Calls come in one after another, each with the steps that the server takes. -/
inductive Receives (s : Server) : List (Call × List Step) → Server → Prop where
  | nil : Receives s [] s
  | concat {calls : List (Call × List Step)} {t u : Server} {call : Call} {steps : List Step}
      {answer : Answer} :
      Receives s calls t → Course (t.receive call) steps (u, answer) →
      Receives s (calls ++ [(call, steps)]) u

/-- All that is said and done while calls come in. -/
def stepsOf (calls : List (Call × List Step)) : List Step := calls.flatMap (·.2)

/-- A call greets a server without a session, and a session is opened. -/
def Opens (s : Server) (call : Call) (steps : List Step) (t : Server) : Prop :=
  s.session = none ∧ ∃ root abilities fileSettings, call.Announces abilities ∧
    steps = [.consulted root fileSettings] ∧
    t.session = some (.opened root abilities fileSettings)

/-- A call is an order that is carried out in the session. -/
def Performs (s : Server) (steps : List Step) (t : Server) : Prop :=
  ∃ order session after, order.IsLater ∧ s.session = some session ∧
    Course (session.perform order) steps after ∧ t.session = some after

/-- A call greets a server that has no session yet, or is carried out in the session, or
is passed over. -/
def Takes (s : Server) (call : Call) (steps : List Step) (t : Server) : Prop :=
  s.Opens call steps t ∨ s.Performs steps t ∨ steps = [] ∧ t.session = s.session

theorem sessionWith_of_none (h : s.session = none) (root : Path) (abilities : Abilities)
    (fileSettings : Settings) :
    s.sessionWith root abilities fileSettings = .opened root abilities fileSettings := by
  rw [sessionWith, h]
  rfl

/-! ## One call -/

/-- No call but a greeting is read as one. -/
theorem isLater_of_ofParams {params : Option Json.Value} (hmethod : method ≠ .greet)
    (h : Order.ofParams params method = .ok order) : order.IsLater := by
  cases method with
  | greet => exact absurd rfl hmethod
  | shutdown =>
    cases params with
    | none =>
      cases h
      exact trivial
    | some v => cases h
  | exit | noEffect =>
    cases h
    exact trivial
  | _ =>
    obtain ⟨_, rfl⟩ := exists_of_map_eq_ok h
    exact trivial

theorem exists_greeting_of_ofParams {params : Option Json.Value}
    (h : Order.ofParams params .greet = .ok order) : ∃ greeting, order = .greet greeting :=
  exists_of_map_eq_ok h

/-- A call that ends at once leaves the session. -/
theorem takes_of_pure {u : Server} {a : Answer} (hu : u.IsTimely) (hsession : u.session = s.session)
    (h : Course (pure (u, a)) steps (t, answer)) : t.IsTimely ∧ s.Takes call steps t := by
  obtain ⟨rfl, hresult⟩ := Dialogue.course_pure_iff.mp h
  obtain rfl := (Prod.mk.inj hresult).1
  exact ⟨hu, .inr (.inr ⟨rfl, hsession⟩)⟩

/-- What a call does that is no greeting, where there is a session. -/
theorem takes_of_attempt (hmethod : method ≠ .greet) (hs : s.IsTimely)
    (hsession : s.session.isSome = true) (h : Course (s.attempt method call) steps (t, answer)) :
    t.IsTimely ∧ s.Takes call steps t := by
  rw [attempt] at h
  split at h
  · exact takes_of_pure hs rfl h
  · cases horder : Order.ofParams call.params method with
    | error fault =>
      rw [horder] at h
      exact takes_of_pure hs rfl h
    | ok order =>
      rw [horder] at h
      obtain ⟨⟨after, result⟩, hcarried, hresult⟩ := Dialogue.course_map_iff.mp h
      obtain rfl := (Prod.mk.inj hresult).1
      obtain ⟨session, hsession⟩ := Option.isSome_iff_exists.mp hsession
      have hlater := isLater_of_ofParams hmethod horder
      obtain ⟨changed, hperformed, rfl⟩ := course_carryOut hsession hlater hcarried
      refine ⟨?_, .inr (.inl ⟨order, session, changed, hlater, hsession, hperformed, rfl⟩)⟩
      rw [IsTimely] at hs ⊢
      cases hphase : s.phase <;> simp_all

/-- The first greeting opens a session, unless it cannot be read. -/
theorem takes_of_receiveFirst (hmethod : Method.ofName? call.method = some .greet)
    (hphase : s.phase = .fresh) (hsession : s.session = none)
    (h : Course (s.receiveFirst call).withheld steps (t, answer)) :
    t.IsTimely ∧ s.Takes call steps t := by
  have hfresh : s.IsTimely := by rwa [IsTimely, hphase]
  rw [receiveFirst, attempt] at h
  split at h
  · exact takes_of_pure hfresh rfl h
  · rename_i hkind
    have hrequest : call.isRequest = true := (Decidable.not_not.mp hkind).symm
    cases horder : Order.ofParams call.params .greet with
    | error fault =>
      simp only [horder, refuse, hrequest, if_true] at h
      exact takes_of_pure hfresh rfl h
    | ok order =>
      obtain ⟨greeting, rfl⟩ := exists_greeting_of_ofParams horder
      simp only [horder, hrequest, if_true] at h
      -- Looking up the settings of the workspace is all that happens.
      cases h with
      | consult fileSettings h =>
        obtain ⟨rfl, hresult⟩ := Dialogue.course_pure_iff.mp h
        obtain rfl := (Prod.mk.inj hresult).1
        have hopened := sessionWith_of_none hsession (greeting.root?.getD s.here)
          greeting.abilities fileSettings
        exact ⟨rfl, .inl ⟨hsession, _, _, fileSettings, ⟨hmethod, greeting, horder, rfl⟩, rfl,
          congrArg some hopened⟩⟩

/-- A server that was not greeted only listens to greetings. -/
theorem takes_of_fresh (hmethod : Method.ofName? call.method = some method)
    (hphase : s.phase = .fresh) (hs : s.IsTimely)
    (h : Course (s.receiveKnown method call).withheld steps (t, answer)) :
    t.IsTimely ∧ s.Takes call steps t := by
  have hsession : s.session = none := by rwa [IsTimely, hphase] at hs
  rw [receiveKnown.eq_def, hphase] at h
  cases method with
  | greet => exact takes_of_receiveFirst hmethod hphase hsession h
  | exit =>
    have hexited : IsTimely { s with phase := .exited } := trivial
    exact takes_of_pure hexited rfl h
  | _ => exact takes_of_pure hs rfl h

/-- A server that works carries out orders, and is not greeted again. -/
theorem takes_of_working (hphase : s.phase = .working) (hs : s.IsTimely)
    (h : Course (s.receiveKnown method call) steps (t, answer)) :
    t.IsTimely ∧ s.Takes call steps t := by
  have hsession : s.session.isSome = true := by rwa [IsTimely, hphase] at hs
  rw [receiveKnown.eq_def, hphase] at h
  cases method with
  | greet | noEffect => exact takes_of_pure hs rfl h
  | exit =>
    have hexited : IsTimely { s with phase := .exited } := trivial
    exact takes_of_pure hexited rfl h
  | shutdown =>
    have hshutDown : IsTimely { s with phase := .shutDown } := trivial
    have hmethod : Method.shutdown ≠ .greet := nofun
    exact takes_of_attempt (s := { s with phase := .shutDown }) hmethod hshutDown hsession h
  | _ =>
    refine takes_of_attempt ?_ hs hsession h
    nofun

/-- A server that was shut down carries out nothing. -/
theorem takes_of_shutDown (hphase : s.phase = .shutDown) (hs : s.IsTimely)
    (h : Course (s.receiveKnown method call) steps (t, answer)) :
    t.IsTimely ∧ s.Takes call steps t := by
  rw [receiveKnown.eq_def, hphase] at h
  cases method with
  | exit =>
    have hexited : IsTimely { s with phase := .exited } := trivial
    exact takes_of_pure hexited rfl h
  | _ => exact takes_of_pure hs rfl h

/-- What a call does. -/
theorem course_receive (hs : s.IsTimely) (h : Course (s.receive call) steps (t, answer)) :
    t.IsTimely ∧ s.Takes call steps t := by
  rw [receive] at h
  split at h
  · exact takes_of_pure hs rfl h
  · rename_i hexited
    cases hmethod : Method.ofName? call.method with
    | none =>
      rw [hmethod] at h
      simp only [receiveUnknown] at h
      split at h <;> exact takes_of_pure hs rfl h
    | some method =>
      rw [hmethod] at h
      cases hphase : s.phase with
      | fresh =>
        rw [hphase] at h
        exact takes_of_fresh hmethod hphase hs h
      | working =>
        rw [hphase] at h
        exact takes_of_working hphase hs h
      | shutDown =>
        rw [hphase] at h
        exact takes_of_shutDown hphase hs h
      | exited => exact absurd hphase hexited

/-! ## All calls -/

theorem stepsOf_concat (calls : List (Call × List Step)) (call : Call) (steps : List Step) :
    stepsOf (calls ++ [(call, steps)]) = stepsOf calls ++ steps := by
  simp [stepsOf]

/-- As long as calls come in there is no session and nothing was done, or a greeting has
announced what the editor can do and everything holds that holds of a session when it is
opened and that orders keep. -/
theorem Receives.cases {P : Abilities → List Step → Session → Prop} {here : Path}
    {calls : List (Call × List Step)} (h : ({ here } : Server).Receives calls t)
    (hopened : ∀ root abilities fileSettings, P abilities [.consulted root fileSettings]
      (.opened root abilities fileSettings))
    (hkept : ∀ abilities steps before order more after, P abilities steps before →
      order.IsLater → Course (before.perform order) more after →
      P abilities (steps ++ more) after) :
    t.IsTimely ∧ (t.session = none ∧ stepsOf calls = [] ∨
      ∃ session abilities, t.session = some session ∧
        (∃ call ∈ calls, call.1.Announces abilities) ∧ P abilities (stepsOf calls) session) := by
  induction h with
  | nil => exact ⟨rfl, .inl ⟨rfl, rfl⟩⟩
  | @concat calls t u call more answer _ hcourse ih =>
    obtain ⟨htimely, hbefore⟩ := ih
    obtain ⟨htimely, htakes⟩ := course_receive htimely hcourse
    refine ⟨htimely, ?_⟩
    rw [stepsOf_concat]
    rcases hbefore with ⟨hsession, hsteps⟩ | ⟨session, abilities, hsession, ⟨first, hfirst, hsays⟩, hP⟩
    · -- Without a session only a greeting does anything.
      rw [hsteps, List.nil_append]
      rcases htakes with ⟨-, root, abilities, fileSettings, hsays, rfl, hu⟩ |
        ⟨order, session, after, -, hsome, -⟩ | ⟨rfl, hu⟩
      · have hmem : (call, [.consulted root fileSettings]) ∈
            calls ++ [(call, [.consulted root fileSettings])] := by simp
        exact .inr ⟨_, abilities, hu, ⟨_, hmem, hsays⟩, hopened ..⟩
      · rw [hsession] at hsome
        cases hsome
      · exact .inl ⟨hu.trans hsession, rfl⟩
    · have hannounced : ∃ call' ∈ calls ++ [(call, more)], call'.1.Announces abilities :=
        ⟨first, List.mem_append_left _ hfirst, hsays⟩
      rcases htakes with ⟨hu, -⟩ | ⟨order, before, after, horder, hsome, hperformed, hu⟩ | ⟨rfl, hu⟩
      · rw [hsession] at hu
        cases hu
      · obtain rfl := Option.some.inj (hsession.symm.trans hsome)
        exact .inr ⟨after, abilities, hu, hannounced, hkept _ _ _ _ _ _ hP horder hperformed⟩
      · rw [List.append_nil]
        exact .inr ⟨session, abilities, hu.trans hsession, hannounced, hP⟩

end Server

end DiagnosticRelay
