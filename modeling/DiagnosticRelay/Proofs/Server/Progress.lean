import DiagnosticRelay.Proofs.Run.Coverage
import DiagnosticRelay.Proofs.Server.Configuration
import DiagnosticRelay.Proofs.Server.Lifetime
import DiagnosticRelay.Proofs.Url.FilePath
import Mathlib.Data.List.Nodup

/-!
# Progress of runs

An editor that shows progress is asked for it once in a run, under the next token. The
tokens are counted with 64 bits, so no two runs have the same one until as many runs were
asked for as there are tokens. If the editor takes the token, the work begins and ends in
the same run, whatever the outcome; if it refuses, the token is not heard of again until
the tokens start over. So all that is said about progress is a sequence of blocks, one for
each run, and a block is empty, a refusal, or a whole piece of work. Where the work ends
among the other notices of a run depends on the outcome: it is the last of a run that
succeeds, and comes before the error of one that fails.

## Main definitions

* `Dialogue.Signal`, `Dialogue.signals`: what is said about progress.
* `Dialogue.IsBlock`: what is said of a token in one run.
* `tokensFrom`: the tokens that follow one another.
* `Analysis`: a run in a session, with all that is said and done.
* `Analysis.IsTold`: the notices of a run, in order.
* `Session.Works`: a session with runs that do not overlap.

## Main results

* `nodup_tokensFrom_iff`: when tokens in a row are different.
* `Session.signals_analyse`: the block of a run.
* `Session.works_of_receives`: what calls do is such a session.
* `Session.progress_protocol`: progress and notices of all runs.
-/

namespace DiagnosticRelay

namespace Dialogue

/-- What is said about the progress of the work of a token. -/
inductive Signal where
  /-- The editor agrees to show it. -/
  | accepted (token : UInt64)
  /-- The editor does not agree. -/
  | refused (token : UInt64)
  /-- The work begins. -/
  | begun (token : UInt64)
  /-- The work ends. -/
  | ended (token : UInt64)
  deriving DecidableEq, Repr

/-- The token of a signal. -/
def Signal.token : Signal → UInt64
  | .accepted token | .refused token | .begun token | .ended token => token

/-- The token that the editor is asked for, whatever it says. -/
def Signal.requested? : Signal → Option UInt64
  | .accepted token | .refused token => some token
  | .begun _ | .ended _ => none

/-- What a step says about progress. -/
def Step.signal? : Step → Option Signal
  | .asked (.progress token) reply =>
    some (if reply.isConsent then .accepted token else .refused token)
  | .told (.beginWork token _) => some (.begun token)
  | .told (.endWork token _) => some (.ended token)
  | _ => none

/-- What some steps say about progress, in order. -/
def signals (steps : List Step) : List Signal := steps.filterMap Step.signal?

/-- What is said of a token in one run: that it is refused, or that its work begins and ends. -/
def IsBlock (token : UInt64) (said : List Signal) : Prop :=
  said = [.refused token] ∨ said = [.accepted token, .begun token, .ended token]

variable {xs ys : List Step} {token other : UInt64} {said : List Signal}

theorem IsBlock.token_eq (h : IsBlock token said) : ∀ signal ∈ said, signal.token = token := by
  rcases h with rfl | rfl <;> simp [Signal.token]

theorem IsBlock.requested (h : IsBlock token said) :
    said.filterMap Signal.requested? = [token] := by
  rcases h with rfl | rfl <;> rfl

/-- Nothing else is said of a token that is refused. -/
theorem IsBlock.eq_refused (h : IsBlock token said) (hrefused : .refused other ∈ said) :
    ∀ signal ∈ said, signal = .refused other := by
  rcases h with rfl | rfl
  · obtain rfl : other = token := by simpa using hrefused
    simp
  · simp at hrefused

@[simp] theorem signals_append : signals (xs ++ ys) = signals xs ++ signals ys :=
  List.filterMap_append

@[simp] theorem signals_executed {commandLine : String} {directory : Path}
    {execution : Execution} :
    signals (.executed commandLine directory execution :: xs) = signals xs := rfl

theorem signals_of_isAboutSettings (h : ∀ step ∈ xs, step.isAboutSettings = true) :
    signals xs = [] := by
  refine List.filterMap_eq_nil_iff.mpr fun step hstep => ?_
  have hstep := h step hstep
  cases step with
  | told n => cases n <;> first | rfl | cases hstep
  | asked query reply => cases query <;> first | rfl | cases hstep
  | _ => rfl

end Dialogue

/-! ## Tokens -/

/-- Tokens have different names. -/
theorem tokenName_injective : Function.Injective tokenName := by
  intro a b h
  have hname : a.toNat.repr = b.toNat.repr := (String.append_right_inj _).mp h
  have hread := congrArg (fun name => Nat.ofDigitChars 10 name.toList 0) hname
  exact UInt64.toNat_inj.mp (by simpa using hread)

/-- A number of tokens in a row, from a first one. The last token is followed by the first
of all. -/
def tokensFrom (first : UInt64) (count : Nat) : List UInt64 :=
  (List.range count).map fun i => first + UInt64.ofNat i

theorem tokensFrom_succ (first : UInt64) (count : Nat) :
    tokensFrom first (count + 1) = tokensFrom first count ++ [first + UInt64.ofNat count] := by
  rw [tokensFrom, List.range_succ, List.map_append]
  rfl

/-- Tokens in a row are different as long as they do not start over. -/
theorem nodup_tokensFrom_iff (first : UInt64) {count : Nat} :
    (tokensFrom first count).Nodup ↔ count ≤ 2 ^ 64 := by
  constructor
  · intro h
    by_contra hmany
    -- The token after the last one is that from which the row started.
    have hagain : first + UInt64.ofNat 0 = first + UInt64.ofNat (2 ^ 64) := rfl
    have hsame := List.inj_on_of_nodup_map h (List.mem_range.mpr (by omega))
      (List.mem_range.mpr (by omega)) hagain
    omega
  · intro hcount
    refine List.nodup_range.map_on fun i hi j hj hsame => ?_
    rw [List.mem_range] at hi hj
    have hvalues := congrArg UInt64.toNat ((UInt64.add_right_inj first).mp hsame)
    rw [UInt64.toNat_ofNat', UInt64.toNat_ofNat'] at hvalues
    omega

/-! ## Publications -/

/-- A notice publishes what the store has for a path, for the document of the path. -/
def Notice.Publishes (store : Store) (p : Path) (n : Notice) : Prop :=
  ∃ document, Url.ofFilePath? p = some document ∧
    n = .publish document (((store.get? p).getD []).map (Diagnostic.publish document))

namespace Session

open Dialogue (Course Step Signal signals IsBlock)

variable {s t u : Session} {steps trace more : List Step} {token : Option UInt64} {text : String}
  {target : Option Path}

/-! ## Progress in a run -/

/-- The ways in which work with a text begins, with the token that it has. -/
inductive Opening (s : Session) (text : String) : List Step → Option UInt64 → Prop where
  /-- The editor shows no progress. -/
  | unable : s.abilities.progress = false → Opening s text [] none
  /-- The editor refuses the token. -/
  | refused {reply : Reply} : s.abilities.progress = true → reply.isConsent = false →
      Opening s text [.asked (.progress s.nextToken) reply] none
  /-- The editor takes the token. -/
  | accepted {reply : Reply} : s.abilities.progress = true → reply.isConsent = true →
      Opening s text [.asked (.progress s.nextToken) reply, .told (.beginWork s.nextToken text)]
        (some s.nextToken)

/-- Work uses up a token if the editor shows progress, and otherwise changes nothing. -/
theorem opening_of_beginWork (h : Course (s.beginWork text) steps (t, token)) :
    s.Opening text steps token ∧
      t = { s with nextToken := s.nextToken + if s.abilities.progress then 1 else 0 } := by
  rcases course_beginWork h with
    ⟨hunable, rfl, rfl, rfl⟩ | ⟨reply, hable, rfl, ⟨hreply, rfl, rfl⟩ | ⟨hreply, rfl, rfl⟩⟩
  · exact ⟨.unable hunable, by simp [hunable]⟩
  · exact ⟨.refused hable hreply, by simp [hable]⟩
  · exact ⟨.accepted hable hreply, by simp [hable]⟩

theorem signals_endNotices (token : Option UInt64) (text : String) :
    (endNotices token text).filterMap (Step.signal? ∘ Step.told) =
      token.toList.map Signal.ended := by
  cases token <;> rfl

/-- Of all that is told about an outcome, only the end of the work is about progress. -/
theorem signals_outcomeNotices (outcome : Store × Except Failure Summary) :
    signals ((outcomeNotices token outcome).map .told) = token.toList.map Signal.ended := by
  obtain ⟨store, outcome⟩ := outcome
  rw [signals, List.filterMap_map]
  cases outcome with
  | error failure =>
    rw [outcomeNotices, failureNotices, List.filterMap_append, signals_endNotices]
    exact List.append_nil _
  | ok summary =>
    have hpublished : (summary.touched.filterMap (publication? store)).filterMap
        (Step.signal? ∘ Step.told) = [] := by
      refine List.filterMap_eq_nil_iff.mpr fun n hn => ?_
      obtain ⟨p, -, hn⟩ := List.mem_filterMap.mp hn
      obtain ⟨document, -, rfl⟩ := Option.map_eq_some_iff.mp hn
      rfl
    have hwarned : (summary.generalErrors.map fun text =>
        Notice.show .warning (remark text)).filterMap (Step.signal? ∘ Step.told) = [] := by
      rw [List.filterMap_map]
      exact List.filterMap_eq_nil_iff.mpr fun _ _ => rfl
    rw [outcomeNotices, summaryNotices, List.filterMap_append, List.filterMap_append, hpublished,
      hwarned, List.filterMap_cons_none rfl, signals_endNotices]
    rfl

/-- What is said about progress in a run: nothing, that its token is refused, or that its
work begins and ends. -/
theorem signals_analyse (h : Course (s.analyse target) steps t) :
    t.abilities = s.abilities ∧
      ((s.abilities.progress = false ∧ t.nextToken = s.nextToken ∧ signals steps = []) ∨
        (s.abilities.progress = true ∧ t.nextToken = s.nextToken + 1 ∧
          IsBlock s.nextToken (signals steps))) := by
  obtain ⟨opening, begun, token, execution, hbegun, rfl, rfl⟩ := course_analyse h
  obtain ⟨hopening, rfl⟩ := opening_of_beginWork hbegun
  clear h hbegun
  refine ⟨rfl, ?_⟩
  rw [Dialogue.signals_append, Dialogue.signals_executed, signals_outcomeNotices]
  cases hopening with
  | unable hunable => exact .inl ⟨hunable, by simp [hunable], rfl⟩
  | refused hable hreply =>
    exact .inr ⟨hable, by simp [hable], .inl (by simp [signals, Step.signal?, hreply])⟩
  | accepted hable hreply =>
    exact .inr ⟨hable, by simp [hable], .inr (by simp [signals, Step.signal?, hreply])⟩

end Session

/-! ## Notices of a run -/

/-- A run in a session, with all that is said and done. -/
structure Analysis where
  /-- The session before the run. -/
  before : Session
  target : Option Path
  steps : List Dialogue.Step

namespace Analysis

/-- What a run fixes at its turn. -/
def launch (run : Analysis) : Launch :=
  .of run.before.root run.before.settings run.before.store run.target

/-- The notices of a run that succeeds: what it makes of the absolute paths that it
touched, a warning for each message of the report that belongs to no file, its status, and
the end of its work. One that fails ends its work and shows an error. -/
def TellsOutcome (run : Analysis) (token : Option UInt64) (notices : List Notice) :
    Except Failure Report → Prop
  | .ok report =>
    let applied := run.launch.apply report run.before.store
    let status := applied.2.status.getD "done"
    ∃ publications,
      List.Forall₂ (Notice.Publishes applied.1) (applied.2.touched.filter Path.isAbsolute)
        publications ∧
      notices = publications ++
        report.errors.map (fun text => .show .warning ("PHPStan: " ++ text)) ++
        [.log .info ("PHPStan: " ++ status)] ++ token.toList.map (.endWork · status)
  | .error failure =>
    notices = token.toList.map (.endWork · "failed") ++ [.show .error failure.message]

/-- Work begins, the analyser is executed, and its outcome is told. Nothing else happens. -/
def IsTold (run : Analysis) : Prop :=
  ∃ opening token execution notices,
    run.before.Opening (Session.workName run.target) opening token ∧
    run.steps = opening ++
      .executed run.launch.commandLine run.before.root execution :: notices.map .told ∧
    run.TellsOutcome token notices execution.report

end Analysis

namespace Session

open Dialogue (Course Step Signal signals)

variable {s t u : Session} {steps trace more : List Step} {token : Option UInt64}
  {target : Option Path} {runs : List Analysis}

/-- The paths that have a document are the absolute ones. -/
theorem forall₂_publication? (store : Store) (paths : List Path) :
    List.Forall₂ (Notice.Publishes store) (paths.filter Path.isAbsolute)
      (paths.filterMap (publication? store)) := by
  induction paths with
  | nil => exact .nil
  | cons p paths ih =>
    cases hp : p.isAbsolute with
    | true =>
      obtain ⟨document, hdocument⟩ :=
        Option.isSome_iff_exists.mp ((Url.isSome_ofFilePath?_iff p).mpr hp)
      have hpublished : publication? store p = some (.publish document
          (((store.get? p).getD []).map (Diagnostic.publish document))) := by
        rw [publication?, hdocument]
        rfl
      rw [List.filter_cons_of_pos hp, List.filterMap_cons_some hpublished]
      exact .cons ⟨document, hdocument, rfl⟩ ih
    | false =>
      have hnone : publication? store p = none := by
        rw [publication?, Option.map_eq_none_iff, ← Option.not_isSome_iff_eq_none,
          Url.isSome_ofFilePath?_iff, hp]
        exact Bool.false_ne_true
      rw [List.filter_cons_of_neg (by simp [hp]), List.filterMap_cons_none hnone]
      exact ih

theorem generalErrors_apply (l : Launch) (report : Report) (store : Store) :
    (l.apply report store).2.generalErrors = report.errors := by
  rw [Launch.apply]
  cases l.target <;> rfl

/-- Everything that a run tells. -/
theorem isTold_analyse (h : Course (s.analyse target) steps t) :
    Analysis.IsTold ⟨s, target, steps⟩ := by
  obtain ⟨opening, begun, token, execution, hopening, rfl, -⟩ := course_analyse h
  refine ⟨opening, token, execution, _, (opening_of_beginWork hopening).1, rfl, ?_⟩
  cases hreport : execution.report with
  | error failure =>
    rw [Launch.conclude_of_failure hreport]
    rfl
  | ok report =>
    rw [Launch.conclude_of_report hreport]
    refine ⟨_, forall₂_publication? _ _, ?_⟩
    rw [outcomeNotices, summaryNotices, generalErrors_apply]
    simp [Analysis.launch, remark, endNotices]

/-! ## Sessions -/

/-- A session and the runs in it, one after another, with all that is said and done.
Between runs anything may happen that is not about progress. -/
inductive Works (s : Session) : List Step → List Analysis → Session → Prop where
  | opened : Works s [] [] s
  | meanwhile {trace more : List Step} {runs : List Analysis} {t u : Session} :
      Works s trace runs t → u.abilities = t.abilities → u.nextToken = t.nextToken →
      signals more = [] → Works s (trace ++ more) runs u
  | analysed {trace more : List Step} {runs : List Analysis} {t u : Session}
      {target : Option Path} :
      Works s trace runs t → Course (t.analyse target) more u →
      Works s (trace ++ more) (runs ++ [⟨t, target, more⟩]) u

theorem Works.configured (h : s.Works trace runs t) (hmore : t.Configures more u) :
    s.Works (trace ++ more) runs u := by
  obtain ⟨_, _, rfl⟩ := hmore.stays
  exact h.meanwhile rfl rfl (Dialogue.signals_of_isAboutSettings hmore.about)

/-- A session with runs goes on with a call. -/
theorem Works.perform {order : Order} (h : s.Works trace runs t) (horder : order.IsLater)
    (hmore : Course (t.perform order) more u) : ∃ runs, s.Works (trace ++ more) runs u := by
  rcases configures_perform horder hmore with
    hmore | ⟨before, ran, between, target, rfl, hbefore, hran⟩
  · exact ⟨runs, h.configured hmore⟩
  · rw [← List.append_assoc]
    exact ⟨_, (h.configured hbefore).analysed hran⟩

/-- The session of a server that calls come in to is such a session. -/
theorem works_of_receives {here : Path} {calls : List (Call × List Step)} {server : Server}
    {session : Session} (h : ({ here } : Server).Receives calls server)
    (hsession : server.session = some session) :
    ∃ (first : Session) (runs : List Analysis), first.nextToken = 0 ∧
      first.Works (Server.stepsOf calls) runs session := by
  have hopened (root : Path) (abilities : Abilities) (fileSettings : Settings) :
      (Session.opened root abilities fileSettings).Works [.consulted root fileSettings] []
        (.opened root abilities fileSettings) := Works.opened.meanwhile rfl rfl rfl
  obtain ⟨-, ⟨hnone, -⟩ | ⟨_, _, hsome, -, first, runs, htokens, hworks⟩⟩ :=
    h.cases (P := fun _ steps session => ∃ (first : Session) (runs : List Analysis),
        first.nextToken = 0 ∧ first.Works steps runs session)
      (fun root abilities fileSettings => ⟨_, [], rfl, hopened root abilities fileSettings⟩)
      fun _ _ _ _ _ _ ⟨first, _, htokens, hworks⟩ horder hperformed =>
        have ⟨runs, hmore⟩ := hworks.perform horder hperformed
        ⟨first, runs, htokens, hmore⟩
  · rw [hsession] at hnone
    cases hnone
  · obtain rfl := Option.some.inj (hsession.symm.trans hsome)
    exact ⟨first, runs, htokens, hworks⟩

/-- What holds of the progress of a session from its beginning. -/
structure Reports (s : Session) (said : List Signal) (t : Session) : Prop where
  abilities : t.abilities = s.abilities
  requested : said.filterMap Signal.requested? =
    tokensFrom s.nextToken (said.filterMap Signal.requested?).length
  next : t.nextToken = s.nextToken + UInt64.ofNat (said.filterMap Signal.requested?).length
  /-- No token is heard of before the editor is asked for it. -/
  heard : ∀ signal ∈ said, signal.token ∈ said.filterMap Signal.requested?
  refused : (said.filterMap Signal.requested?).Nodup → ∀ token, .refused token ∈ said →
    ∀ signal ∈ said, signal.token = token → signal = .refused token
  unable : s.abilities.progress = false → said = []

theorem reports_refl (s : Session) : s.Reports [] s where
  abilities := rfl
  requested := rfl
  next := (UInt64.add_zero _).symm
  heard := List.forall_mem_nil _
  refused _ _ h := absurd h List.not_mem_nil
  unable _ := rfl

/-- A run has the next token, if it has one. -/
theorem Reports.analysed {said : List Signal} (h : s.Reports said t)
    (hrun : Course (t.analyse target) more u) : s.Reports (said ++ signals more) u := by
  obtain ⟨habilities, ⟨hunable, hnext, hsignals⟩ | ⟨hable, hnext, hblock⟩⟩ :=
    signals_analyse hrun
  · rw [hsignals, List.append_nil]
    exact { h with abilities := habilities.trans h.abilities, next := hnext.trans h.next }
  · have hrequested : (said ++ signals more).filterMap Signal.requested? =
        said.filterMap Signal.requested? ++ [t.nextToken] := by
      rw [List.filterMap_append, hblock.requested]
    have hlength : ((said ++ signals more).filterMap Signal.requested?).length =
        (said.filterMap Signal.requested?).length + 1 := by
      rw [hrequested, List.length_append, List.length_singleton]
    refine
      { abilities := habilities.trans h.abilities
        requested := ?requested
        next := ?next
        heard := ?heard
        refused := ?refused
        unable := fun hunable => absurd (h.abilities ▸ hable) (by simp [hunable]) }
    case requested => rw [hlength, hrequested, tokensFrom_succ, ← h.requested, ← h.next]
    case next =>
      rw [hlength, hnext, h.next, UInt64.ofNat_add, UInt64.add_assoc]
      rfl
    case heard =>
      intro signal hsignal
      rw [hrequested, List.mem_append]
      rcases List.mem_append.mp hsignal with hsignal | hsignal
      · exact .inl (h.heard signal hsignal)
      · exact .inr (List.mem_singleton.mpr (hblock.token_eq signal hsignal))
    case refused =>
      intro hdistinct token htoken signal hsignal hsame
      rw [hrequested, List.nodup_append', List.disjoint_singleton] at hdistinct
      obtain ⟨hdistinct, -, hunheard⟩ := hdistinct
      have hold : ∀ signal ∈ said, signal.token ≠ t.nextToken := fun signal hsignal heq =>
        hunheard (heq ▸ h.heard signal hsignal)
      -- The token of this run is not an old one, so signals with one token are all old or all new.
      rcases List.mem_append.mp htoken with htoken | htoken <;>
        rcases List.mem_append.mp hsignal with hsignal | hsignal
      · exact h.refused hdistinct token htoken signal hsignal hsame
      · exact absurd (hsame.symm.trans (hblock.token_eq signal hsignal)) (hold _ htoken)
      · exact absurd (hsame.trans (hblock.token_eq _ htoken)) (hold signal hsignal)
      · exact hblock.eq_refused htoken signal hsignal

theorem Works.reports (h : s.Works trace runs t) : s.Reports (signals trace) t := by
  induction h with
  | opened => exact reports_refl s
  | meanwhile _ habilities hnext hsignals ih =>
    rw [Dialogue.signals_append, hsignals, List.append_nil]
    exact { ih with abilities := habilities.trans ih.abilities, next := hnext.trans ih.next }
  | analysed _ hrun ih =>
    rw [Dialogue.signals_append]
    exact ih.analysed hrun

/-- All that is said about progress is said in runs. -/
theorem Works.signals_eq (h : s.Works trace runs t) :
    signals trace = runs.flatMap fun run => signals run.steps := by
  induction h with
  | opened => rfl
  | meanwhile _ _ _ hsignals ih => rw [Dialogue.signals_append, hsignals, List.append_nil, ih]
  | analysed _ _ ih => simp [ih]

theorem Works.course_of_mem (h : s.Works trace runs t) {run : Analysis} (hrun : run ∈ runs) :
    ∃ after, Course (run.before.analyse run.target) run.steps after := by
  induction h with
  | opened => cases hrun
  | meanwhile _ _ _ _ ih => exact ih hrun
  | analysed _ hcourse ih =>
    rcases List.mem_append.mp hrun with hrun | hrun
    · exact ih hrun
    · rw [List.mem_singleton.mp hrun]
      exact ⟨_, hcourse⟩

/-- In a session with runs that do not overlap, whatever the editor takes or refuses and
whatever becomes of the runs, the editor is asked for progress under tokens in a row. Their
names are different as long as the tokens do not start over, and then neither a beginning
nor an end is heard of a token that was refused. In each run the editor is not asked, or
refuses the token, or takes it; if it takes it, the work begins and then ends once. What is
told in a run is fixed, in order, by its outcome. -/
theorem progress_protocol (h : s.Works trace runs t) :
    let tokens := (signals trace).filterMap Signal.requested?
    (tokens = tokensFrom s.nextToken tokens.length) ∧
    ((tokens.map tokenName).Nodup ↔ tokens.length ≤ 2 ^ 64) ∧
    (signals trace = runs.flatMap fun run => signals run.steps) ∧
    (∀ run ∈ runs, signals run.steps = [] ∨ ∃ token, signals run.steps = [.refused token] ∨
      signals run.steps = [.accepted token, .begun token, .ended token]) ∧
    (tokens.length ≤ 2 ^ 64 → ∀ token, .refused token ∈ signals trace →
      .begun token ∉ signals trace ∧ .ended token ∉ signals trace) ∧
    (s.abilities.progress = false → signals trace = []) ∧
    ∀ run ∈ runs, run.IsTold := by
  intro tokens
  have hreports := h.reports
  have hdistinct : tokens.Nodup ↔ tokens.length ≤ 2 ^ 64 := by
    rw [← nodup_tokensFrom_iff s.nextToken, ← hreports.requested]
  refine ⟨hreports.requested, (List.nodup_map_iff tokenName_injective).trans hdistinct,
    h.signals_eq, fun run hrun => ?_, fun hcount token hrefused =>
      ⟨fun hbegun => ?_, fun hended => ?_⟩, hreports.unable, fun run hrun => ?_⟩
  · obtain ⟨_, hcourse⟩ := h.course_of_mem hrun
    obtain ⟨-, ⟨-, -, hsignals⟩ | ⟨-, -, hsignals⟩⟩ := signals_analyse hcourse
    · exact .inl hsignals
    · exact .inr ⟨_, hsignals⟩
  · cases hreports.refused (hdistinct.mpr hcount) token hrefused _ hbegun rfl
  · cases hreports.refused (hdistinct.mpr hcount) token hrefused _ hended rfl
  · obtain ⟨_, hcourse⟩ := h.course_of_mem hrun
    exact isTold_analyse hcourse

section Hesitation

/-- An editor that refuses the first token, and an analyser that finds a violation in two
runs and then is gone. The number of the run is kept. -/
def hesitantEditor : Dialogue.Host Nat where
  settings _ _ := {}
  reply run
    | .progress _ => if run = 0 then .refusal else .result .null
    | _ => .refusal
  execute run _ _ :=
    (if run < 2 then .ok {
        code := some 1
        stdout := "\x7b\"files\":\x7b\"/p/a.php\":\x7b\"messages\":[\x7b\"message\":\"m\"\x7d]\x7d\x7d\x7d"
        stderr := "" }
      else .error "not there", run + 1)

/-- A workspace whose editor shows progress. -/
def progressWorkspace : Session where
  root := .ofString "/p"
  fileSettings := {}
  abilities := { progress := true }

/-- What a run on the project makes of a session with that editor. -/
def afterRun (state : Session × Nat) : Session × Nat :=
  let held := (state.1.analyse none).converse hesitantEditor state.2
  (held.result, held.host)

/-- The steps of a run on the project with that editor. -/
def runSteps (state : Session × Nat) : List Step :=
  (state.1.analyse none).transcript hesitantEditor state.2

theorem Works.afterRun (state : Session × Nat) (h : s.Works trace runs state.1) :
    s.Works (trace ++ runSteps state) (runs ++ [⟨state.1, none, runSteps state⟩])
      (afterRun state).1 :=
  h.analysed (Dialogue.course_transcript hesitantEditor state.2 (state.1.analyse none))

/-- The first token is refused, and the work of the other two begins and ends, also where
the analyser is gone. -/
theorem progress_protocol_hesitantEditor :
    ∃ trace runs t, progressWorkspace.Works trace runs t ∧
      signals trace =
        [.refused 0, .accepted 1, .begun 1, .ended 1, .accepted 2, .begun 2, .ended 2] ∧
      ((signals trace).filterMap Signal.requested?).map tokenName =
        ["phpstan/0", "phpstan/1", "phpstan/2"] ∧
      .begun 0 ∉ signals trace ∧ runs.length = 3 ∧ ∀ run ∈ runs, run.IsTold := by
  have hfirst := Works.opened.afterRun (progressWorkspace, 0)
  have hthird := (hfirst.afterRun (Session.afterRun _)).afterRun (Session.afterRun _)
  have hsignals : signals ([] ++ runSteps (progressWorkspace, 0) ++
      runSteps (Session.afterRun (progressWorkspace, 0)) ++
      runSteps (Session.afterRun (Session.afterRun (progressWorkspace, 0)))) =
        [.refused 0, .accepted 1, .begun 1, .ended 1, .accepted 2, .begun 2, .ended 2] := by
    decide +kernel
  obtain ⟨-, -, -, -, hrefused, -, htold⟩ := progress_protocol hthird
  refine ⟨_, _, _, hthird, hsignals, ?_, (hrefused ?_ 0 ?_).1, rfl, htold⟩ <;> rw [hsignals]
  · decide +kernel
  · decide
  · exact List.mem_cons_self

end Hesitation

end Session

end DiagnosticRelay
