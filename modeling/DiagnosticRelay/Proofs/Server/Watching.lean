import DiagnosticRelay.Proofs.Server.Configuration
import DiagnosticRelay.Proofs.Server.Lifetime

/-!
# Watched files

An editor that can watch files keeps the globs that it watches for the server, and the
server only remembers whether there is one. The two agree as long as the server lets the
editor watch another glob only after the old one has ended. So the glob that is watched
is always the one in force, also if the settings bring another one while the server
starts, and a refused one is asked for again only with the next change.

## Main definitions

* `Dialogue.watchedAfter`: the globs that an editor watches.
* `Dialogue.IsOrderly`: nothing is watched twice, and nothing ends that is not watched.
* `Session.watchedGlobs`: what a session takes to be watched.
* `Session.Follows`: the parts of a call keep the two in line.

## Main results

* `Session.follows_perform`: one call.
* `Server.watching_follows_settings`: all calls.
-/

namespace DiagnosticRelay

/-- Whether an editor is asked to watch files, or to end that. -/
def Query.isAboutWatching : Query → Bool
  | .watch _ | .unwatch => true
  | .settings | .progress _ => false

namespace Dialogue

/-- Whether a step is about watching files. -/
def Step.isAboutWatching : Step → Bool
  | .asked query _ => query.isAboutWatching
  | .told _ | .executed .. | .consulted .. => false

/-- The globs that an editor watches for the server after a step. What it refuses changes
nothing. -/
def Step.watched (globs : List String) : Step → List String
  | .asked (.watch glob) reply => if reply.isConsent then glob :: globs else globs
  | .asked .unwatch reply => if reply.isConsent then globs.tail else globs
  | _ => globs

/-- The globs that an editor watches for the server after some steps. -/
def watchedAfter (globs : List String) (steps : List Step) : List String :=
  steps.foldl Step.watched globs

/-- A step asks to watch a glob where none is watched, or to end the watching of one that
is, or for something else. -/
def Step.IsDue (globs : List String) : Step → Prop
  | .asked (.watch _) _ => globs = []
  | .asked .unwatch _ => globs ≠ []
  | _ => True

/-- Nothing is watched twice, and nothing ends that is not watched. -/
def IsOrderly (globs : List String) (steps : List Step) : Prop :=
  ∀ earlier step later, steps = earlier ++ step :: later → step.IsDue (watchedAfter globs earlier)

/-- The editor agrees whenever it is asked to end the watching of files. -/
def AgreesToEnds (steps : List Step) : Prop :=
  ∀ reply, .asked .unwatch reply ∈ steps → reply.isConsent = true

/-- None of the steps is about watching files. -/
def IsUnrelated (steps : List Step) : Prop := ∀ step ∈ steps, step.isAboutWatching = false

variable {globs : List String} {step : Step} {steps xs ys : List Step}

/-! ## Steps one after another -/

@[simp] theorem watchedAfter_append :
    watchedAfter globs (xs ++ ys) = watchedAfter (watchedAfter globs xs) ys :=
  List.foldl_append

theorem isOrderly_nil : IsOrderly globs [] := by
  intro earlier step later h
  simp at h

theorem isOrderly_cons_iff :
    IsOrderly globs (step :: steps) ↔ step.IsDue globs ∧ IsOrderly (step.watched globs) steps := by
  constructor
  · intro h
    refine ⟨h [] step steps rfl, fun earlier other later hsteps => ?_⟩
    exact h (step :: earlier) other later (by rw [hsteps, List.cons_append])
  · rintro ⟨hstep, hsteps⟩ earlier other later h
    cases earlier with
    | nil =>
      obtain ⟨rfl, rfl⟩ := List.cons.inj h
      exact hstep
    | cons first earlier =>
      obtain ⟨rfl, rfl⟩ := List.cons.inj h
      exact hsteps earlier other later rfl

theorem isOrderly_append_iff :
    IsOrderly globs (xs ++ ys) ↔ IsOrderly globs xs ∧ IsOrderly (watchedAfter globs xs) ys := by
  induction xs generalizing globs with
  | nil => exact (and_iff_right isOrderly_nil).symm
  | cons step xs ih => rw [List.cons_append, isOrderly_cons_iff, isOrderly_cons_iff, ih, and_assoc]; rfl

theorem AgreesToEnds.of_append (h : AgreesToEnds (xs ++ ys)) : AgreesToEnds xs ∧ AgreesToEnds ys :=
  ⟨fun reply hreply => h reply (List.mem_append_left _ hreply),
    fun reply hreply => h reply (List.mem_append_right _ hreply)⟩

theorem IsUnrelated.append (hxs : IsUnrelated xs) (hys : IsUnrelated ys) : IsUnrelated (xs ++ ys) :=
  fun step hstep => (List.mem_append.mp hstep).elim (hxs step) (hys step)

theorem isUnrelated_told (notices : List Notice) : IsUnrelated (notices.map .told) := by
  intro step hstep
  obtain ⟨n, -, rfl⟩ := List.mem_map.mp hstep
  rfl

/-- Steps about something else are in order and change nothing. -/
theorem IsUnrelated.isOrderly (h : IsUnrelated steps) :
    IsOrderly globs steps ∧ watchedAfter globs steps = globs := by
  induction steps with
  | nil => exact ⟨isOrderly_nil, rfl⟩
  | cons step steps ih =>
    obtain ⟨hstep, hsteps⟩ := List.forall_mem_cons.mp h
    have hnothing : step.IsDue globs ∧ step.watched globs = globs := by
      cases step with
      | asked query reply => cases query <;> first | exact ⟨trivial, rfl⟩ | cases hstep
      | _ => exact ⟨trivial, rfl⟩
    obtain ⟨horderly, hwatched⟩ := ih hsteps
    rw [isOrderly_cons_iff, watchedAfter, List.foldl_cons, hnothing.2]
    exact ⟨⟨hnothing.1, horderly⟩, hwatched⟩

end Dialogue

namespace Session

open Dialogue (Course Step IsUnrelated IsOrderly AgreesToEnds watchedAfter)

variable {s t u : Session} {globs : List String} {steps xs ys : List Step} {order : Order}

/-! ## Parts of a call -/

/-- What a session takes to be watched: the glob in force, if any. -/
def watchedGlobs (s : Session) : List String := if s.isWatching then [s.settings.watchGlob] else []

/-- A session goes on while its editor watches some globs. If the editor can watch files
and ends that whenever it is asked to, it is asked in order and then watches what the
session takes to be watched. If it cannot, it is not asked. -/
structure Follows (s : Session) (globs : List String) (steps : List Step) (t : Session) : Prop where
  abilities : t.abilities = s.abilities
  unable : s.abilities.watching = false → IsUnrelated steps
  able : s.abilities.watching = true → AgreesToEnds steps →
    IsOrderly globs steps ∧ watchedAfter globs steps = t.watchedGlobs

theorem Follows.trans (h : s.Follows globs xs t) (h' : t.Follows t.watchedGlobs ys u) :
    s.Follows globs (xs ++ ys) u where
  abilities := h'.abilities.trans h.abilities
  unable hunable := (h.unable hunable).append (h'.unable (h.abilities ▸ hunable))
  able hable hagrees := by
    obtain ⟨hxs, hys⟩ := hagrees.of_append
    obtain ⟨hfirst, hbetween⟩ := h.able hable hxs
    obtain ⟨hsecond, hafter⟩ := h'.able (h.abilities ▸ hable) hys
    rw [Dialogue.isOrderly_append_iff, Dialogue.watchedAfter_append, hbetween]
    exact ⟨⟨hfirst, hsecond⟩, hafter⟩

/-- Steps about something else may come before. -/
theorem Follows.of_isUnrelated (h : s.Follows globs ys t) (hxs : IsUnrelated xs) :
    s.Follows globs (xs ++ ys) t where
  abilities := h.abilities
  unable hunable := hxs.append (h.unable hunable)
  able hable hagrees := by
    obtain ⟨horderly, hwatched⟩ : IsOrderly globs xs ∧ watchedAfter globs xs = globs := hxs.isOrderly
    rw [Dialogue.isOrderly_append_iff, Dialogue.watchedAfter_append, hwatched]
    obtain ⟨hys, hafter⟩ := h.able hable hagrees.of_append.2
    exact ⟨⟨horderly, hys⟩, hafter⟩

/-- A session goes on without a word about watching. -/
theorem follows_of_isUnrelated (hsteps : IsUnrelated steps) (habilities : t.abilities = s.abilities)
    (hwatched : t.watchedGlobs = s.watchedGlobs) : s.Follows s.watchedGlobs steps t where
  abilities := habilities
  unable _ := hsteps
  able _ _ := hwatched ▸ hsteps.isOrderly

/-- Whatever glob is watched, the editor watches the one in force afterwards, or none if it
refuses. -/
theorem follows_renewWatch {glob : String} (hglobs : globs = if s.isWatching then [glob] else [])
    (h : Course s.renewWatch steps t) : s.Follows globs steps t := by
  rcases course_renewWatch h with ⟨hunable, rfl, rfl⟩ | ⟨ending, reply, hable, hended, rfl, rfl⟩
  · refine ⟨rfl, fun _ => List.forall_mem_nil _, fun hable => ?_⟩
    rw [hunable] at hable
    cases hable
  · refine ⟨rfl, fun hunable => ?_, fun _ hagrees => ?_⟩
    · rw [hable] at hunable
      cases hunable
    · -- Nothing is watched any more when the new glob is asked for.
      have hnone : IsOrderly globs ending ∧ watchedAfter globs ending = [] := by
        obtain ⟨-, ⟨hwatching, rfl⟩ | ⟨hwatching, ended, rfl⟩⟩ := course_endWatch hended
        · simp [hglobs, hwatching, watchedAfter, Dialogue.isOrderly_nil]
        · have hend : ended.isConsent = true := hagrees ended (by simp)
          simp [hglobs, hwatching, hend, watchedAfter, Dialogue.isOrderly_cons_iff,
            Dialogue.isOrderly_nil, Step.IsDue, Step.watched]
      rw [Dialogue.isOrderly_append_iff, Dialogue.watchedAfter_append, hnone.2,
        Dialogue.isOrderly_cons_iff]
      exact ⟨⟨hnone.1, rfl, Dialogue.isOrderly_nil⟩, rfl⟩

/-- A run takes up nothing that is watched. -/
theorem follows_analyse {target : Option Path} (h : Course (s.analyse target) steps t) :
    s.Follows s.watchedGlobs steps t := by
  obtain ⟨opening, begun, token, execution, hopening, rfl, rfl⟩ := course_analyse h
  have hbegun : IsUnrelated opening ∧ begun.abilities = s.abilities ∧
      begun.watchedGlobs = s.watchedGlobs := by
    rcases course_beginWork hopening with
      ⟨-, rfl, rfl, -⟩ | ⟨reply, -, rfl, ⟨-, rfl, -⟩ | ⟨-, -, rfl⟩⟩ <;>
      exact ⟨by simp [IsUnrelated, Step.isAboutWatching, Query.isAboutWatching], rfl, rfl⟩
  obtain ⟨hopening, habilities, hwatched⟩ := hbegun
  refine follows_of_isUnrelated (hopening.append ?_) habilities hwatched
  exact List.forall_mem_cons.mpr ⟨rfl, Dialogue.isUnrelated_told _⟩

/-- Settings take effect, and the editor watches the glob that they bring. -/
theorem follows_adopt {settings : Settings} (h : Course (s.adopt settings) steps t) :
    s.Follows s.watchedGlobs steps t := by
  obtain ⟨rest, rfl, hrest⟩ := course_adopt h
  have htold := Dialogue.isUnrelated_told (globNotices settings)
  rcases hrest with ⟨hglob, rfl, rfl⟩ | ⟨-, hrenewed⟩
  · rw [List.append_nil]
    refine follows_of_isUnrelated htold rfl ?_
    simp [watchedGlobs, Session.settings, hglob]
  · -- The editor still watches the old glob when the new one takes effect.
    have hrenewed : Follows { s with channel := s.channel.replace settings } s.watchedGlobs rest t :=
      follows_renewWatch rfl hrenewed
    exact Follows.of_isUnrelated ⟨hrenewed.abilities, hrenewed.unable, hrenewed.able⟩ htold

theorem follows_applyValue? {v : Option Json.Value} (h : Course (s.applyValue? v) steps t) :
    s.Follows s.watchedGlobs steps t := by
  rcases course_applyValue? h with ⟨-, rfl, rfl⟩ | ⟨w, -, ⟨o, -, hadopted⟩ | ⟨m, -, rfl, rfl⟩⟩
  · exact follows_of_isUnrelated (List.forall_mem_nil _) rfl rfl
  · exact follows_adopt hadopted
  · exact follows_of_isUnrelated (Dialogue.isUnrelated_told [_]) rfl rfl

theorem isUnrelated_askValue {v : Option Json.Value} (h : Course s.askValue steps v) :
    IsUnrelated steps := by
  rcases course_askValue h with ⟨-, rfl, -⟩ | ⟨reply, -, rfl, -⟩
  · exact List.forall_mem_nil _
  · exact List.forall_mem_singleton.mpr rfl

/-! ## Calls -/

/-- Once greeted, the editor watches the glob of the settings that it is asked for. -/
theorem follows_start (h : Course s.start steps t) : s.Follows s.watchedGlobs steps t := by
  obtain ⟨asked, given, renewed, ran, v, configured, watching, rfl, hasked, hgiven, hrenewed, hran⟩ :=
    course_start h
  have hwatching := (follows_applyValue? hgiven).trans (follows_renewWatch rfl hrenewed)
  have hdone := (hwatching.trans (follows_analyse hran)).of_isUnrelated (isUnrelated_askValue hasked)
  simpa only [List.append_assoc] using hdone

theorem follows_settingsChanged {given : Json.Value}
    (h : Course (s.settingsChanged given) steps t) : s.Follows s.watchedGlobs steps t := by
  obtain ⟨asked, rest, v, rfl, hrest, hasked⟩ := course_settingsChanged h
  refine (follows_applyValue? hrest).of_isUnrelated ?_
  rcases hasked with ⟨w, -, rfl, -⟩ | ⟨-, hasked⟩
  · exact List.forall_mem_nil _
  · exact isUnrelated_askValue hasked

/-- Every call keeps what the editor watches and what the session takes to be watched in
line. -/
theorem follows_perform (horder : order.IsLater) (h : Course (s.perform order) steps t) :
    s.Follows s.watchedGlobs steps t := by
  rcases course_perform horder h with ⟨-, h⟩ | ⟨given, -, h⟩ | ⟨-, -, ⟨target, h⟩ | ⟨rfl, rfl⟩⟩
  · exact follows_start h
  · exact follows_settingsChanged h
  · exact follows_analyse h
  · exact follows_of_isUnrelated (List.forall_mem_nil _) rfl rfl

end Session

namespace Server

open Dialogue (AgreesToEnds IsOrderly IsUnrelated watchedAfter)

/-- Calls come in, in any order and at any time, and the editor accepts or refuses what it
is asked. If it has announced that it can watch files, and ends that whenever it is asked
to, then it is never asked to watch a glob while it watches one nor to end what it does not
watch, and after every call it watches the glob in force if the session takes it to watch
one, and otherwise none. An editor that cannot watch files is never asked about it. -/
theorem watching_follows_settings {here : Path} {calls : List (Call × List Dialogue.Step)}
    {s : Server} {session : Session} (hcalls : ({ here } : Server).Receives calls s)
    (hsession : s.session = some session) :
    (∃ call ∈ calls, call.1.Announces session.abilities) ∧
    (session.abilities.watching = true → AgreesToEnds (stepsOf calls) →
      IsOrderly [] (stepsOf calls) ∧ watchedAfter [] (stepsOf calls) =
        if session.isWatching then [session.settings.watchGlob] else []) ∧
    (session.abilities.watching = false → IsUnrelated (stepsOf calls)) := by
  have hopened (root : Path) (abilities : Abilities) (fileSettings : Settings) :
      (Session.opened root abilities fileSettings).Follows [] [.consulted root fileSettings]
        (.opened root abilities fileSettings) :=
    Session.follows_of_isUnrelated (List.forall_mem_singleton.mpr rfl) rfl rfl
  obtain ⟨-, ⟨hnone, -⟩ | ⟨_, _, hsome, hannounced, first, rfl, hfollows⟩⟩ :=
    hcalls.cases (P := fun abilities steps session =>
      ∃ first : Session, first.abilities = abilities ∧ first.Follows [] steps session)
      (fun root abilities fileSettings => ⟨_, rfl, hopened root abilities fileSettings⟩)
      fun _ _ _ _ _ _ ⟨first, habilities, hfollows⟩ horder hperformed =>
        ⟨first, habilities, hfollows.trans (Session.follows_perform horder hperformed)⟩
  · rw [hsession] at hnone
    cases hnone
  · obtain rfl := Option.some.inj (hsession.symm.trans hsome)
    rw [hfollows.abilities]
    exact ⟨hannounced, hfollows.able, hfollows.unable⟩

section ChangingGlobs

/-- An editor that has a glob of its own, watches all files on demand but those of `b`, and
ends that whenever it is asked to. -/
def watchingEditor : Dialogue.Host Unit where
  settings _ _ := {}
  reply _
    | .settings => .result (.array [.object [("watchGlob", .string "a")]])
    | .watch glob => if glob = "b" then .refusal else .result .null
    | _ => .result .null
  execute _ _ _ := (.error "not there", ())

/-- What the editor can do in a workspace, field by field: the fourth says that it watches
files on demand, the eighth that it can be asked for settings. -/
def workspaceAbilities : List Json.Value :=
  [.null, .null, .null, .array [.bool true, .null], .null, .null, .null, .bool true,
    .null, .null, .null, .null, .null]

/-- The editor says what it can do. -/
def watchingGreeting : Call where
  method := "initialize"
  params := some (.object [("capabilities", .object [("workspace", .array workspaceAbilities)])])
  isRequest := true

/-- The editor is ready. -/
def readyCall : Call where
  method := "initialized"
  params := some (.object [])
  isRequest := false

/-- The editor has another glob. -/
def globCall (glob : String) : Call where
  method := "workspace/didChangeConfiguration"
  params := some (.object [("settings", .object [("phpstan", .object [
    ("watchGlob", .string glob)])])])
  isRequest := false

/-- What a call makes of a server with that editor. -/
def afterCall (s : Server) (call : Call) : Server :=
  ((s.receive call).converse watchingEditor ()).result.1

theorem Receives.concat_afterCall {s t : Server} {calls : List (Call × List Dialogue.Step)}
    (h : s.Receives calls t) (hagrees : AgreesToEnds (stepsOf calls)) (call : Call) :
    ∃ more, s.Receives more (t.afterCall call) ∧ AgreesToEnds (stepsOf more) := by
  refine ⟨_, h.concat (Dialogue.course_transcript watchingEditor () (t.receive call)), ?_⟩
  rw [stepsOf_concat]
  intro reply hreply
  rcases List.mem_append.mp hreply with hreply | hreply
  · exact hagrees reply hreply
  · obtain ⟨_, rfl⟩ := Dialogue.reply_of_mem_transcript hreply
    rfl

/-- The glob of the editor takes effect while the server starts, the next one is refused,
and the one after that is watched. -/
theorem watching_follows_settings_changingGlobs :
    ∃ (calls : List (Call × List Dialogue.Step)) (s : Server) (session : Session),
      ({ here := .ofString "/" } : Server).Receives calls s ∧ s.session = some session ∧
        session.settings.watchGlob = "c" ∧ IsOrderly [] (stepsOf calls) ∧
        watchedAfter [] (stepsOf calls) = ["c"] := by
  obtain ⟨_, hgreeted, hagrees⟩ := (Receives.nil (s := { here := .ofString "/" })).concat_afterCall
    (fun _ h => by cases h) watchingGreeting
  obtain ⟨_, hready, hagrees⟩ := hgreeted.concat_afterCall hagrees readyCall
  obtain ⟨_, hrefused, hagrees⟩ := hready.concat_afterCall hagrees (globCall "b")
  obtain ⟨calls, hcalls, hagrees⟩ := hrefused.concat_afterCall hagrees (globCall "c")
  have hlast : ([watchingGreeting, readyCall, globCall "b", globCall "c"].foldl afterCall
      { here := .ofString "/" }).session.map (fun session =>
        (session.abilities.watching, session.isWatching, session.settings.watchGlob)) =
      some (true, true, "c") := by decide +kernel
  obtain ⟨session, hsession, hglob⟩ := Option.map_eq_some_iff.mp hlast
  simp only [Prod.mk.injEq] at hglob
  obtain ⟨hable, hwatching, hglob⟩ := hglob
  obtain ⟨-, hfollows, -⟩ := watching_follows_settings hcalls hsession
  obtain ⟨horderly, hwatched⟩ := hfollows hable hagrees
  rw [hwatching, hglob, if_pos rfl] at hwatched
  exact ⟨calls, _, session, hcalls, hsession, hglob, horderly, hwatched⟩

end ChangingGlobs

end Server

end DiagnosticRelay
