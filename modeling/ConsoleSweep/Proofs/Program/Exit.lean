import ConsoleSweep.Program
import ConsoleSweep.Proofs.Sweep.Aside
import ConsoleSweep.Proofs.Sweep.Consent

/-!
# How the program ends

The program reads its arguments, loads its theme and does its run, and each of these can end it.
`exit_of_program` says which end it comes to: when it succeeds, what it shows where, and what it has
done to the files. A program that fails before its run has reported anything shows nothing but the
log and the failure, and leaves all files alone; and a theme that cannot be loaded ends it before
the files of the run are looked at.

## Shape of the proof

* What follows the report of what was found is `Late`: it may fail, but neither to collect nor to
  scan. So a run that fails to do either is still where `opened` leaves it, and has only read and
  logged (`quiet_of_early`).
* `run_of_stop`, `run_of_defect`, `run_of_error` and `run_of_ok` give the exit for each of the ends.
* The run starts when the program has already logged something. A run does not notice that
  (`unaware_run_logged`), so its end is that of a run by itself.
-/

namespace ConsoleSweep

open ConsoleSweep.Action

/-! ## What has been logged before -/

/-- The world with earlier records in the log. -/
def World.logged (earlier : List Log.Record) : World → World := retold id id id earlier

theorem unaware_report_logged (earlier : List Log.Record) (text : String) :
    Unaware (World.logged earlier) (report text) := by
  refine unaware_report ?_ ?_ text
  · exact fun _ => rfl
  · exact fun _ _ => rfl

theorem unaware_prompt_logged (earlier : List Log.Record) (question : String) (default : Bool) :
    Unaware (World.logged earlier) (Confirmer.prompt.confirm question default) :=
  (compositional_unaware _).prompt (unaware_report_logged earlier)
    (unaware_readLine (fun _ => rfl) fun _ _ => rfl) question default

/-! ## Failing before anything is reported -/

/-- A failure to collect the files of a run, or to scan one of them. -/
def Failure.isEarly : Failure → Bool
  | collecting _ _ => true
  | scanning _ _ => true
  | _ => false

/-- An action that may fail, but neither to collect nor to scan. -/
def Late {α : Type} (act : Sweep α) : Prop := ∀ ⦃w e w'⦄, act w = .error e w' → e.isEarly = false

section Late

variable {α β : Type} {act : Sweep α}

theorem late_pure (a : α) : Late (pure a) := by
  intro w e w' h
  cases h

theorem late_log (level : Log.Level) (source : Log.Source) (text : String) :
    Late (log level source text) := by
  intro w e w' h
  rw [log_eq] at h
  cases h

theorem late_report (text : String) : Late (report text) := by
  intro w e w' h
  rcases report_cases text w with ⟨v, hreport, -⟩ | ⟨v, hreport, -⟩
  · rw [hreport] at h
    cases h
  · rw [hreport] at h
    cases h
    rfl

theorem Late.bind {next : α → Sweep β} (h : Late act) (hnext : ∀ a, Late (next a)) :
    Late (act >>= next) := by
  intro w e w' hfails
  cases hact : act w with
  | ok a v =>
    rw [bind_of_ok hact] at hfails
    exact hnext a hfails
  | error e' v =>
    rw [bind_of_error hact] at hfails
    cases hfails
    exact h hact

theorem late_readLine : Late readLine := by
  intro w e w' h
  cases hline : Utf8.decode? (cutLine w.input).1 with
  | none =>
    rw [readLine_of_none hline] at h
    cases h
    rfl
  | some text =>
    rw [readLine_of_some hline] at h
    cases h

theorem compositional_late : Compositional @Late := ⟨late_pure, Late.bind⟩

theorem late_prompt (question : String) (default : Bool) :
    Late (Confirmer.prompt.confirm question default) :=
  compositional_late.prompt late_report late_readLine question default

end Late

namespace Setup

variable {s : Setup} {w w' : World} {e : Failure}

/-- What follows the report of what was found fails late. -/
theorem late_settle (hconfirm : ∀ question default, Late (s.confirmer.confirm question default))
    (scanned : Nat) (results : List ScanResult) : Late (s.settle scanned results) := by
  refine compositional_late.settle late_report (fun r w e w' h => ?_) late_log (fun summary => ?_)
    scanned results
  · unfold within at h
    split at h
    · cases h
    · cases h
      rfl
  · exact Late.bind (fun _ _ _ h => by cases h) fun _ => hconfirm _ _

/-- A run that fails to collect or to scan has only read and logged. -/
theorem quiet_of_early (hconfirm : ∀ question default, Late (s.confirmer.confirm question default))
    (hfind : s.others.duringFind = Interference.none.duringFind)
    (h : s.run w = .error e w') (hearly : e.isEarly = true) : w.Quiet w' := by
  have hopened := s.opened hfind w
  cases hopening : s.opening w with
  | error e' v =>
    rw [run_of_opening_error hopening] at h
    cases h
    rw [hopening] at hopened
    cases hopened with
    | uncollected _ hquiet => exact hquiet
    | unscanned _ _ _ hquiet => exact hquiet
    | unreported _ _ _ => exact absurd hearly (by decide)
  | ok found v =>
    rw [run_of_opening hopening] at h
    split at h
    · cases h
    · exact absurd hearly (by simp [late_settle hconfirm _ _ h])

end Setup

namespace Program

/-! ## The parts of the program -/

/-- The theme that is asked for, or why it cannot be loaded. -/
def themeOf (request : CommandLine.Request) (tree : FileTree) : Except Theme.FileDefect Theme :=
  match request.theme with
  | none => .ok .standard
  | some path => Theme.load tree path

/-- The requested run. -/
def setupOf (request : CommandLine.Request) (theme : Theme) : Setup :=
  ⟨request.options, ⟨theme, false⟩, confirmerFor request, .none⟩

/-- What is logged before the theme is loaded. -/
def startRecord : Log.Record :=
  ⟨.debug, .program, "noconsole started. Version: " ++ CommandLine.programVersion⟩

/-- What is logged before the run. -/
def optionsRecord (request : CommandLine.Request) : Log.Record :=
  ⟨.debug, .program, "Run options: " ++ request.options.describe⟩

/-- What is logged after the run. -/
def finishRecord (outcome : Outcome) : Log.Record :=
  ⟨.debug, .program, "Run finished: " ++ outcome.describe⟩

/-- What is shown of a log, after the warnings about what was asked for. -/
def shown (i : Invocation) (request : CommandLine.Request) (records : List Log.Record) : String :=
  String.join (Log.Filter.warnings (filterText i.log)) ++
    shownLog (filter i.log request.debug) records

/-- A run does not notice what has been logged before. -/
theorem unaware_run_logged (request : CommandLine.Request) (theme : Theme)
    (earlier : List Log.Record) :
    Unaware (World.logged earlier) (setupOf request theme).run := by
  refine Setup.unaware_run (unaware_report_logged earlier) _ fun summary => ?_
  refine Unaware.bind (fun _ => rfl) fun _ => ?_
  show Unaware _ ((confirmerFor request).confirm _ _)
  unfold confirmerFor
  split
  · exact unaware_pure _
  · exact unaware_prompt_logged _ _ _

variable {i : Invocation} {tree : FileTree} {input : Bytes} {request : CommandLine.Request}
  {theme : Theme} {defect : Theme.FileDefect} {w w' : World}

theorem loadTheme_of_ok (h : themeOf request tree = .ok theme) {w : World} (hw : w.tree = tree) :
    loadTheme request.theme w = .ok theme w := by
  subst hw
  unfold themeOf at h
  unfold loadTheme
  cases hpath : request.theme with
  | none =>
    rw [hpath] at h
    cases h
    rfl
  | some path =>
    simp only [hpath] at h ⊢
    rw [bind_of_ok (get_eq w)]
    simp only [h]
    rfl

theorem loadTheme_of_error (h : themeOf request tree = .error defect) {w : World}
    (hw : w.tree = tree) : loadTheme request.theme w = .error (.theme defect) w := by
  subst hw
  unfold themeOf at h
  unfold loadTheme
  cases hpath : request.theme with
  | none =>
    rw [hpath] at h
    cases h
  | some path =>
    simp only [hpath] at h ⊢
    rw [bind_of_ok (get_eq w)]
    simp only [h]
    rfl

/-- Once the theme is loaded, the program is its run and a record about the outcome. -/
theorem act_of_theme (htheme : themeOf request tree = .ok theme) (input : Bytes) :
    let earlier := [startRecord, optionsRecord request]
    act request (.start tree none input) = (do
      let outcome ← (setupOf request theme).run.within Fatal.run
      Action.log .debug .program ("Run finished: " ++ outcome.describe)
      return outcome) ((World.start tree none input).logged earlier) := by
  intro earlier
  have hlog : ∀ (records : List Log.Record) (level : Log.Level) (source : Log.Source)
      (text : String), (Action.log level source text : Action Fatal Unit)
        ((World.start tree none input).logged records) =
          .ok () ((World.start tree none input).logged (records ++ [⟨level, source, text⟩])) := by
    intro records level source text
    simp [log_eq, World.logged, retold, World.start]
  have hstart : World.start tree none input = (World.start tree none input).logged [] := rfl
  rw [act, hstart, bind_of_ok (hlog _ _ _ _), bind_of_ok (loadTheme_of_ok htheme rfl),
    bind_of_ok (hlog _ _ _ _)]
  rfl

/-! ## The ends of the program -/

/-- A command line that does not lead to a run ends the program. -/
theorem run_of_stop {stop : CommandLine.Stop}
    (hread : CommandLine.read i.arguments.tail i.pattern = .error stop) :
    run i tree input = stopped (CommandLine.startedAs i.arguments.head?) i.pattern tree stop := by
  rw [run, hread]

/-- A command line that is misused is answered by a message. -/
theorem run_of_misuse {misuse : CommandLine.Misuse}
    (hread : CommandLine.read i.arguments.tail i.pattern = .error (.misuse misuse)) :
    run i tree input = ⟨false, [],
      Utf8.encode (visible (misuse.message (CommandLine.startedAs i.arguments.head?))), tree⟩ := by
  rw [run_of_stop hread]
  simp only [stopped, CommandLine.Stop.text, CommandLine.Stop.isAnswer, Bool.false_eq_true,
    if_false]

section Ends

variable (hread : CommandLine.read i.arguments.tail i.pattern = .ok request)
include hread

/-- A theme that cannot be loaded ends the program, whatever else is in the tree. -/
theorem run_of_defect (htheme : themeOf request tree = .error defect) (input : Bytes) :
    run i tree input = ⟨false, [],
      Utf8.encode (shown i request [startRecord] ++ (Fatal.theme defect).message), tree⟩ := by
  have hact : act request (.start tree none input) = .error (.theme defect)
      ((World.start tree none input).logged [startRecord]) := by
    rw [act, bind_of_ok (log_eq ..)]
    exact bind_of_error (loadTheme_of_error htheme rfl)
  rw [run, hread]
  simp only [hact]
  rfl

/-- A run that fails ends the program. -/
theorem run_of_error (htheme : themeOf request tree = .ok theme) {failure : Failure}
    (hrun : (setupOf request theme).run (.start tree none input) = .error failure w) :
    run i tree input = ⟨false, w.sink.written,
      Utf8.encode (shown i request (startRecord :: optionsRecord request :: w.log) ++
        (Fatal.run failure).message), w.tree⟩ := by
  have hlogged := unaware_run_logged request theme [startRecord, optionsRecord request]
    (.start tree none input)
  rw [hrun] at hlogged
  have hact := (act_of_theme htheme input).trans (bind_of_error (within_of_error hlogged))
  rw [run, hread]
  simp only [hact]
  rfl

/-- A run that does not fail ends the program well. -/
theorem run_of_ok (htheme : themeOf request tree = .ok theme) {outcome : Outcome}
    (hrun : (setupOf request theme).run (.start tree none input) = .ok outcome w) :
    run i tree input = ⟨true, w.sink.written,
      Utf8.encode (shown i request
        (startRecord :: optionsRecord request :: w.log ++ [finishRecord outcome])), w.tree⟩ := by
  have hlogged := unaware_run_logged request theme [startRecord, optionsRecord request]
    (.start tree none input)
  rw [hrun] at hlogged
  have hact : act request (.start tree none input) = .ok outcome { w with
      log := startRecord :: optionsRecord request :: w.log ++ [finishRecord outcome] } := by
    rw [act_of_theme htheme, bind_of_ok (within_of_ok hlogged)]
    exact bind_of_ok (log_eq ..)
  rw [run, hread]
  simp only [hact, ended, Option.elim_none, Option.isNone_none, String.append_empty]
  rfl

end Ends

/-- When the program succeeds. -/
theorem code_eq_zero_iff (i : Invocation) (tree : FileTree) (input : Bytes) :
    (run i tree input).code = 0 ↔
      (∃ full, CommandLine.read i.arguments.tail i.pattern = .error (.help full)) ∨
        CommandLine.read i.arguments.tail i.pattern = .error .version ∨
        ∃ request theme outcome w, CommandLine.read i.arguments.tail i.pattern = .ok request ∧
          themeOf request tree = .ok theme ∧
          (setupOf request theme).run (.start tree none input) = .ok outcome w := by
  cases hread : CommandLine.read i.arguments.tail i.pattern with
  | error stop =>
    rw [run_of_stop hread]
    cases stop <;> simp [stopped, Exit.code, CommandLine.Stop.isAnswer]
  | ok request =>
    cases htheme : themeOf request tree with
    | error defect =>
      rw [run_of_defect hread htheme]
      simp [Exit.code, htheme]
    | ok theme =>
      cases hrun : (setupOf request theme).run (.start tree none input) with
      | error failure w =>
        rw [run_of_error hread htheme hrun]
        simp [Exit.code, htheme, hrun]
      | ok outcome w =>
        rw [run_of_ok hread htheme hrun]
        simp [Exit.code, htheme, hrun]

/-- The program fails before it has reported anything, and has changed nothing: the failure is the
last that it shows. -/
structure Refuses (i : Invocation) (tree : FileTree) (input : Bytes) (f : Fatal) : Prop where
  output : (run i tree input).output = []
  errors : ∃ before, (run i tree input).errors = before ++ Utf8.encode f.message
  tree : (run i tree input).tree = tree

/-- A theme that cannot be loaded ends the program. -/
theorem refuses_of_defect (hread : CommandLine.read i.arguments.tail i.pattern = .ok request)
    (htheme : themeOf request tree = .error defect) : Refuses i tree input (.theme defect) where
  output := by rw [run_of_defect hread htheme]
  errors := by
    rw [run_of_defect hread htheme, Utf8.encode_append]
    exact ⟨_, rfl⟩
  tree := by rw [run_of_defect hread htheme]

/-- A command line that is misused ends the program by the message about it. -/
theorem rejects_of_misuse {misuse : CommandLine.Misuse}
    (hread : CommandLine.read i.arguments.tail i.pattern = .error (.misuse misuse)) :
    (run i tree input).output = [] ∧ (run i tree input).tree = tree ∧
      (run i tree input).errors = Utf8.encode
        (visible (misuse.message (CommandLine.startedAs i.arguments.head?))) := by
  simp only [run_of_misuse hread, and_self]

/-- A theme that cannot be loaded ends the program in the same way whatever else there is. -/
theorem run_eq_of_defect (hread : CommandLine.read i.arguments.tail i.pattern = .ok request)
    (htheme : themeOf request tree = .error defect) {tree' : FileTree}
    (htheme' : themeOf request tree' = .error defect) (input' : Bytes) :
    run i tree' input' = { run i tree input with tree := tree' } := by
  rw [run_of_defect hread htheme, run_of_defect hread htheme']

/-- After an answer to the command line, the tree is as it was. -/
theorem tree_of_stop {stop : CommandLine.Stop}
    (hread : CommandLine.read i.arguments.tail i.pattern = .error stop) :
    (run i tree input).tree = tree := by
  rw [run_of_stop hread, stopped]
  split <;> rfl

/-- A run that fails without having reported anything makes the program fail likewise. -/
theorem refuses_of_quiet (hread : CommandLine.read i.arguments.tail i.pattern = .ok request)
    (htheme : themeOf request tree = .ok theme) {failure : Failure}
    (hrun : (setupOf request theme).run (.start tree none input) = .error failure w)
    (hquiet : (World.start tree none input).Quiet w) : Refuses i tree input (.run failure) where
  output := by
    rw [run_of_error hread htheme hrun, hquiet.sink]
    rfl
  errors := by
    rw [run_of_error hread htheme hrun, Utf8.encode_append]
    exact ⟨_, rfl⟩
  tree := by
    rw [run_of_error hread htheme hrun, hquiet.tree]
    rfl

theorem late_confirmerFor (request : CommandLine.Request) (question : String) (default : Bool) :
    Late ((confirmerFor request).confirm question default) := by
  unfold confirmerFor
  split
  · exact late_pure _
  · exact late_prompt _ _

/-- A run that fails to collect or to scan makes the program fail likewise. -/
theorem refuses_of_early (hread : CommandLine.read i.arguments.tail i.pattern = .ok request)
    (htheme : themeOf request tree = .ok theme) {failure : Failure}
    (hrun : (setupOf request theme).run (.start tree none input) = .error failure w)
    (hearly : failure.isEarly = true) : Refuses i tree input (.run failure) :=
  refuses_of_quiet hread htheme hrun
    (Setup.quiet_of_early (late_confirmerFor request) rfl hrun hearly)

/-- Files that cannot be collected end the program. -/
theorem refuses_uncollected (hread : CommandLine.read i.arguments.tail i.pattern = .ok request)
    (htheme : themeOf request tree = .ok theme) {fault : CollectFault}
    (hcollect : collect request.options tree = .error fault) :
    Refuses i tree input (.run (.collecting request.options.root fault)) := by
  have hcourse := Setup.course (s := setupOf request theme) rfl (.start tree none input)
  obtain ⟨hrun, hquiet⟩ := hcourse.of_uncollected hcollect
  exact refuses_of_quiet hread htheme hrun hquiet

/-- A file that cannot be scanned ends the program. -/
theorem refuses_unscanned (hread : CommandLine.read i.arguments.tail i.pattern = .ok request)
    (htheme : themeOf request tree = .ok theme) {files : List Path}
    (hcollect : collect request.options tree = .ok files)
    (hbad : ∃ file ∈ files, ¬ tree.Readable (request.options.root.join file)) :
    ∃ file ∈ files, ∃ fault, tree.readText (request.options.root.join file) = .error fault ∧
      Refuses i tree input
        (.run (.scanning file (.unreadable (request.options.root.join file) fault))) := by
  have hcourse := Setup.course (s := setupOf request theme) rfl (.start tree none input)
  obtain ⟨file, hfile, fault, hunreadable, hrun, hquiet⟩ := hcourse.of_unreadable hcollect hbad
  exact ⟨file, hfile, fault, hunreadable, refuses_of_quiet hread htheme hrun hquiet⟩

/-- **How the program ends.** It exits with 0 if help or the version was asked for, or if the theme
was loaded and the run has not failed, and else with 1. If the command line is misused, the theme
cannot be loaded, or the run fails to collect or to scan, as it does if the files cannot be
collected or one of them cannot be read, then nothing is reported, the failure is the last that is
shown, and the tree is as it was; so it is after help or the version. If the theme cannot be loaded,
neither the input nor anything else in the tree makes a difference. -/
theorem exit_of_program (i : Invocation) (tree : FileTree) (input : Bytes) :
    let asked := CommandLine.read i.arguments.tail i.pattern
    let exit := run i tree input
    (exit.code = 0 ∨ exit.code = 1) ∧
      (exit.code = 0 ↔
        (∃ full, asked = .error (.help full)) ∨ asked = .error .version ∨
          ∃ request theme outcome w, asked = .ok request ∧ themeOf request tree = .ok theme ∧
            (setupOf request theme).run (.start tree none input) = .ok outcome w) ∧
      ((∃ full, asked = .error (.help full)) ∨ asked = .error .version → exit.tree = tree) ∧
      (∀ misuse, asked = .error (.misuse misuse) →
        exit.output = [] ∧ exit.tree = tree ∧ exit.errors = Utf8.encode
          (visible (misuse.message (CommandLine.startedAs i.arguments.head?)))) ∧
      (∀ request defect, asked = .ok request → themeOf request tree = .error defect →
        Refuses i tree input (.theme defect) ∧
          ∀ tree' input', themeOf request tree' = .error defect →
            run i tree' input' = { exit with tree := tree' }) ∧
      (∀ request theme, asked = .ok request → themeOf request tree = .ok theme →
        (∀ failure w, (setupOf request theme).run (.start tree none input) = .error failure w →
          failure.isEarly → Refuses i tree input (.run failure)) ∧
        (∀ fault, collect request.options tree = .error fault →
          Refuses i tree input (.run (.collecting request.options.root fault))) ∧
        ∀ files, collect request.options tree = .ok files →
          (∃ file ∈ files, ¬ tree.Readable (request.options.root.join file)) →
          ∃ file ∈ files, ∃ fault, tree.readText (request.options.root.join file) = .error fault ∧
            Refuses i tree input
              (.run (.scanning file (.unreadable (request.options.root.join file) fault)))) := by
  intro asked exit
  refine ⟨?_, code_eq_zero_iff i tree input, ?_, fun misuse hread => rejects_of_misuse hread,
    fun request defect hread htheme => ⟨refuses_of_defect hread htheme,
      fun tree' input' htheme' => run_eq_of_defect hread htheme htheme' input'⟩,
    fun request theme hread htheme => ⟨fun failure w hrun hearly =>
      refuses_of_early hread htheme hrun hearly, fun fault hcollect =>
      refuses_uncollected hread htheme hcollect, fun files hcollect hbad =>
      refuses_unscanned hread htheme hcollect hbad⟩⟩
  · unfold Exit.code
    split <;> simp
  · rintro (⟨full, hread⟩ | hread)
    · exact tree_of_stop hread
    · exact tree_of_stop hread

/-- An invocation that names a theme. -/
def themedInvocation : Invocation :=
  ⟨["noconsole", "missing", "--theme", "t.yaml"].map Utf8.encode, none, none⟩

/-- What the invocation that names a theme asks for. -/
def themedRequest : CommandLine.Request :=
  ⟨.ofString "missing", Options.defaultPattern, false, [], false, some (.ofString "t.yaml"),
    false⟩

/-- Where there are no files, neither the theme nor the root can be found, and only the theme is
reported. -/
theorem exit_of_program_unthemed :
    let defect := Theme.FileDefect.unreadable (.ofString "t.yaml") .notFound
    (run themedInvocation .empty []).code = 1 ∧
      Refuses themedInvocation .empty [] (.theme defect) ∧
      collect themedRequest.options .empty =
        .error (.unreadable (.ofString "missing") .notFound) := by
  intro defect
  have hread : CommandLine.read themedInvocation.arguments.tail themedInvocation.pattern =
      .ok themedRequest := by decide +kernel
  have hmissing : FileTree.empty.readText (.ofString "t.yaml") = .error .notFound := by
    decide +kernel
  have htheme : themeOf themedRequest .empty = .error defect := by
    simp only [themeOf, themedRequest, Theme.load, hmissing, defect]
  obtain ⟨hcode, hzero, -, -, hdefect, -⟩ := exit_of_program themedInvocation .empty []
  refine ⟨hcode.resolve_left fun hgood => ?_, (hdefect _ _ hread htheme).1, by decide +kernel⟩
  rcases hzero.mp hgood with ⟨full, hhelp⟩ | hversion | ⟨request, theme, -, -, hasked, hloaded, -⟩
  · rw [hread] at hhelp
    cases hhelp
  · rw [hread] at hversion
    cases hversion
  · rw [hread] at hasked
    cases hasked
    rw [htheme] at hloaded
    cases hloaded

end Program

end ConsoleSweep
