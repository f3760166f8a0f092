import DiagnosticRelay.Proofs.Run.Coverage
import DiagnosticRelay.Proofs.Server.Configuration
import DiagnosticRelay.Proofs.Url.FilePath

/-!
# What the editor shows

The editor shows for each document the list of diagnostics that was published last. It
is never told about the store as a whole, only about the paths that a run lists. Still
it shows what the store has, since every path whose entry changes is listed, after the
change.

## Main definitions

* `Dialogue.published`, `Dialogue.lastPublished`: what the editor hears of a document.
* `Dialogue.IsSilent`: steps in which nothing is published.
* `Session.shown`: what the store has for a path, as it is published.
* `Session.Passes`: a session with runs that do not overlap.

## Main results

* `Session.lastPublished_analyse`: what a run makes the editor show.
* `Session.Configures.silent`: new settings publish nothing.
* `Session.lastPublished_eq_shown`: the editor shows what the store has.
-/

namespace DiagnosticRelay

/-- The diagnostics that a notice publishes for a document. -/
def Notice.publishedFor? (document : Url) : Notice → Option (List Published)
  | .publish d diagnostics => if d = document then some diagnostics else none
  | _ => none

namespace Dialogue

/-- The diagnostics that a step publishes for a document. -/
def Step.publishedFor? (document : Url) : Step → Option (List Published)
  | .told n => n.publishedFor? document
  | _ => none

/-- The lists of diagnostics that are published for a document, in order. -/
def published (document : Url) (steps : List Step) : List (List Published) :=
  steps.filterMap (Step.publishedFor? document)

/-- The list of diagnostics that was published last for a document; empty if there was
none. -/
def lastPublished (document : Url) (steps : List Step) : List Published :=
  (published document steps).getLast?.getD []

/-- Nothing is published. -/
def IsSilent (steps : List Step) : Prop := ∀ document, published document steps = []

variable {document : Url} {xs ys : List Step}

@[simp] theorem published_nil : published document [] = [] := rfl

@[simp] theorem published_append :
    published document (xs ++ ys) = published document xs ++ published document ys :=
  List.filterMap_append

@[simp] theorem published_told (notices : List Notice) :
    published document (notices.map .told) = notices.filterMap (Notice.publishedFor? document) := by
  rw [published, List.filterMap_map]
  rfl

@[simp] theorem published_executed {commandLine : String} {directory : Path}
    {execution : Execution} : published document (.executed commandLine directory execution :: xs) =
      published document xs := rfl

theorem lastPublished_append : lastPublished document (xs ++ ys) =
    (published document ys).getLast?.getD (lastPublished document xs) := by
  rw [lastPublished, published_append, List.getLast?_append]
  cases (published document ys).getLast? <;> rfl

theorem lastPublished_append_of_isSilent (h : IsSilent ys) :
    lastPublished document (xs ++ ys) = lastPublished document xs := by
  rw [lastPublished_append, h]
  rfl

theorem IsSilent.append (hxs : IsSilent xs) (hys : IsSilent ys) : IsSilent (xs ++ ys) :=
  fun document => by rw [published_append, hxs, hys, List.append_nil]

theorem isSilent_told {notices : List Notice}
    (h : ∀ n ∈ notices, ∀ document, n.publishedFor? document = none) :
    IsSilent (notices.map .told) := by
  intro document
  rw [published_told, List.filterMap_eq_nil_iff]
  exact fun n hn => h n hn document

end Dialogue

namespace Session

open Dialogue (Course Step IsSilent published lastPublished)

variable {s t : Session} {steps : List Step} {token : Option UInt64} {p : Path} {document : Url}

/-- What the store has for a path, as it is published for a document. -/
def shown (s : Session) (document : Url) (p : Path) : List Published :=
  ((s.store.get? p).getD []).map (Diagnostic.publish document)

/-! ## What a run publishes -/

theorem beginWork_silent {text : String} (h : Course (s.beginWork text) steps (t, token)) :
    IsSilent steps ∧ t.store = s.store := by
  rcases course_beginWork h with ⟨-, rfl, rfl, -⟩ | ⟨reply, -, rfl, ⟨-, rfl, -⟩ | ⟨-, -, rfl⟩⟩ <;>
    exact ⟨fun _ => rfl, rfl⟩

theorem publishedFor?_of_mem_endNotices {text : String} {n : Notice}
    (h : n ∈ endNotices token text) (document : Url) : n.publishedFor? document = none := by
  obtain ⟨_, -, rfl⟩ := List.mem_map.mp h
  rfl

theorem failureNotices_silent (failure : Failure) :
    IsSilent ((failureNotices failure token).map .told) := by
  refine Dialogue.isSilent_told fun n hn document => ?_
  rcases List.mem_append.mp hn with hn | hn
  · exact publishedFor?_of_mem_endNotices hn document
  · rw [List.mem_singleton.mp hn]
    rfl

/-- Of the paths that are listed, those that are the same as a path publish what the
store has for it. -/
theorem bind_publication? (hp : Url.ofFilePath? p = some document) (store : Store) (q : Path) :
    (publication? store q).bind (Notice.publishedFor? document) =
      if Path.Same q p then some (((store.get? p).getD []).map (Diagnostic.publish document))
      else none := by
  -- The document tells the paths apart that are not the same, and no others.
  by_cases hsame : Path.Same q p
  · have hq := (Url.ofFilePath?_eq_some_iff hp).mpr hsame
    simp [publication?, hq, hsame, Notice.publishedFor?, store.get?_congr hsame]
  · have hq : Url.ofFilePath? q ≠ some document := fun hq =>
      hsame ((Url.ofFilePath?_eq_some_iff hp).mp hq)
    cases hurl : Url.ofFilePath? q with
    | none => simp [publication?, hurl, hsame]
    | some d =>
      have hne : d ≠ document := fun heq => hq (heq ▸ hurl)
      simp [publication?, hurl, hsame, Notice.publishedFor?, hne]

/-- A run that succeeded publishes what the store has for a path as often as it lists
the path. -/
theorem published_summaryNotices (hp : Url.ofFilePath? p = some document) (store : Store)
    (summary : Summary) :
    published document ((summaryNotices store summary token).map .told) =
      (summary.touched.filter fun q => Path.Same q p).map fun _ =>
        ((store.get? p).getD []).map (Diagnostic.publish document) := by
  have hwarned : (summary.generalErrors.map fun text => Notice.show .warning (remark text)).filterMap
      (Notice.publishedFor? document) = [] := by simp [Notice.publishedFor?]
  have hended : (Notice.log .info (remark (summary.status.getD "done")) ::
      endNotices token (summary.status.getD "done")).filterMap
        (Notice.publishedFor? document) = [] := by
    refine List.filterMap_eq_nil_iff.mpr fun n hn => ?_
    rcases List.mem_cons.mp hn with rfl | hn
    · rfl
    · exact publishedFor?_of_mem_endNotices hn document
  -- Only the listed paths are left.
  rw [Dialogue.published_told, summaryNotices, List.filterMap_append, List.filterMap_append,
    hwarned, hended, List.append_nil, List.append_nil, List.filterMap_filterMap]
  simp only [bind_publication? hp]
  induction summary.touched with
  | nil => rfl
  | cons q touched ih => by_cases hsame : Path.Same q p <;> simp [hsame, ih]

/-- A run makes the editor show what the store has for the paths that it lists, and leaves
the others. -/
theorem getLast?_published_summaryNotices (hp : Url.ofFilePath? p = some document) (store : Store)
    (summary : Summary) :
    (published document ((summaryNotices store summary token).map .told)).getLast? =
      if ∃ q ∈ summary.touched, Path.Same q p then
        some (((store.get? p).getD []).map (Diagnostic.publish document))
      else none := by
  rw [published_summaryNotices hp, List.getLast?_map]
  split_ifs with htouched
  · obtain ⟨q, hq, hsame⟩ := htouched
    have hmem : q ∈ summary.touched.filter fun q => Path.Same q p :=
      List.mem_filter.mpr ⟨hq, decide_eq_true hsame⟩
    rw [List.getLast?_eq_some_getLast (List.ne_nil_of_mem hmem), Option.map_some]
  · have hnone : (summary.touched.filter fun q => Path.Same q p) = [] := by
      rw [List.filter_eq_nil_iff]
      exact fun q hq hsame => htouched ⟨q, hq, of_decide_eq_true hsame⟩
    rw [hnone]
    rfl

/-- After a run the editor shows what the store has for a path, if it did so before. -/
theorem lastPublished_analyse {target : Option Path} {before : List Step}
    (h : Course (s.analyse target) steps t) (hp : Url.ofFilePath? p = some document)
    (hbefore : lastPublished document before = s.shown document p) :
    lastPublished document (before ++ steps) = t.shown document p := by
  obtain ⟨opening, begun, token, execution, hopening, rfl, rfl⟩ := course_analyse h
  obtain ⟨hsilent, -⟩ := beginWork_silent hopening
  rw [Dialogue.lastPublished_append, Dialogue.published_append, hsilent, List.nil_append, hbefore,
    Dialogue.published_executed]
  cases hreport : execution.report with
  | error failure =>
    rw [Launch.conclude_of_failure hreport, outcomeNotices, failureNotices_silent]
    rfl
  | ok report =>
    rw [Launch.conclude_of_report hreport, outcomeNotices, getLast?_published_summaryNotices hp]
    -- A path that is not listed has kept its entry, so what was shown before still holds.
    split_ifs with htouched
    · rfl
    · simp only [Option.getD_none, shown, Launch.get?_apply_of_not_touched htouched]

/-- A run that fails publishes nothing and leaves the store. -/
theorem analyse_of_failure {target : Option Path} (h : Course (s.analyse target) steps t)
    {commandLine : String} {directory : Path} {execution : Execution} {failure : Failure}
    (hexecuted : .executed commandLine directory execution ∈ steps)
    (hfailure : execution.report = .error failure) : IsSilent steps ∧ t.store = s.store := by
  obtain ⟨opening, begun, token, executed, hopening, rfl, rfl⟩ := course_analyse h
  -- A run executes once, so the failure in its steps is its own.
  have hexecution : execution = executed := by
    rcases List.mem_append.mp hexecuted with hmem | hmem
    · rcases course_beginWork hopening with
        ⟨-, rfl, -, -⟩ | ⟨reply, -, -, ⟨-, rfl, -⟩ | ⟨-, -, rfl⟩⟩ <;> simp at hmem
    · simp only [List.mem_cons, Step.executed.injEq, List.mem_map, reduceCtorEq, and_false,
        exists_false, or_false] at hmem
      exact hmem.2.2
  subst hexecution
  rw [Launch.conclude_of_failure hfailure]
  obtain ⟨hsilent, -⟩ := beginWork_silent hopening
  exact ⟨hsilent.append (failureNotices_silent failure), rfl⟩

/-! ## New settings -/

/-- Settings take effect without a publication, and leave the store. -/
theorem Configures.silent (h : s.Configures steps t) : IsSilent steps ∧ t.store = s.store := by
  obtain ⟨_, _, rfl⟩ := h.stays
  refine ⟨fun document => List.filterMap_eq_nil_iff.mpr fun step hstep => ?_, rfl⟩
  have habout := h.about step hstep
  cases step with
  | told n => cases n <;> first | rfl | cases habout
  | _ => rfl

/-! ## Sessions -/

/-- A session without diagnostics and the runs that follow in it, one after another, with
all that is said and done. Between runs the editor may change the settings, and the
session may change in any way that publishes nothing and leaves the store. -/
inductive Passes : List Step → Session → Prop where
  | opened (s : Session) : s.store = .empty → Passes [] s
  | meanwhile {steps more : List Step} {s t : Session} :
      Passes steps s → t.store = s.store → IsSilent more → Passes (steps ++ more) t
  | configured {steps more : List Step} {s t : Session} {given : Json.Value} :
      Passes steps s → Course (s.settingsChanged given) more t → Passes (steps ++ more) t
  | analysed {steps more : List Step} {s t : Session} {target : Option Path} :
      Passes steps s → Course (s.analyse target) more t → Passes (steps ++ more) t

theorem Passes.lastPublished_eq (h : Passes steps s) (hp : Url.ofFilePath? p = some document) :
    lastPublished document steps = s.shown document p := by
  induction h with
  | opened s hempty => simp [lastPublished, shown, hempty]
  | meanwhile _ hstore hsilent ih =>
    rw [Dialogue.lastPublished_append_of_isSilent hsilent, shown, hstore]
    exact ih
  | configured _ hconfigured ih =>
    obtain ⟨hsilent, hstore⟩ := (configures_settingsChanged hconfigured).silent
    rw [Dialogue.lastPublished_append_of_isSilent hsilent, shown, hstore]
    exact ih
  | analysed _ hanalysed ih => exact lastPublished_analyse hanalysed hp ih

/-- After runs that do not overlap, the editor shows for the document of each absolute
path what the store has for the path, and a run that fails publishes nothing and leaves
the store. -/
theorem lastPublished_eq_shown (h : Passes steps s) (hp : p.isAbsolute = true) :
    (∃ document, Url.ofFilePath? p = some document ∧
      lastPublished document steps =
        ((s.store.get? p).getD []).map (Diagnostic.publish document)) ∧
    ∀ target more t commandLine directory execution failure, Course (s.analyse target) more t →
      .executed commandLine directory execution ∈ more → execution.report = .error failure →
        IsSilent more ∧ t.store = s.store := by
  obtain ⟨document, hdocument⟩ :=
    Option.isSome_iff_exists.mp ((Url.isSome_ofFilePath?_iff p).mpr hp)
  refine ⟨⟨document, hdocument, h.lastPublished_eq hdocument⟩, ?_⟩
  intro target more t commandLine directory execution failure hanalysed hexecuted hfailure
  exact analyse_of_failure hanalysed hexecuted hfailure

/-- A workspace whose editor shows no progress. -/
def plainWorkspace : Session where
  root := .ofString "/p"
  fileSettings := {}
  abilities := {}

/-- An analyser that finds one violation, and an editor that refuses everything. -/
def oneViolation : Dialogue.Host Unit where
  settings _ _ := {}
  reply _ _ := .refusal
  execute _ _ _ := (.ok {
    code := some 1
    stdout := "\x7b\"files\":\x7b\"/p/a.php\":\x7b\"messages\":[\x7b\"message\":\"m\"\x7d]\x7d\x7d\x7d"
    stderr := "" }, ())

/-- The editor shows the violation that a run on the project finds. -/
theorem lastPublished_eq_shown_plainWorkspace :
    ∃ steps t, Passes steps t ∧ t.store.contains (.ofString "/p/a.php") = true ∧
      ∃ document, Url.ofFilePath? (.ofString "/p/a.php") = some document ∧
        lastPublished document steps =
          ((t.store.get? (.ofString "/p/a.php")).getD []).map (Diagnostic.publish document) := by
  obtain ⟨steps, hcourse, -⟩ :=
    Dialogue.exists_course oneViolation () (plainWorkspace.analyse none)
  have hpasses := (Passes.opened plainWorkspace rfl).analysed hcourse
  exact ⟨_, _, hpasses, by decide +kernel,
    (lastPublished_eq_shown hpasses (by decide +kernel)).1⟩

end Session

end DiagnosticRelay
