import ConsoleSweep.Proofs.Sweep.Removal

/-!
# The courses a run can take

A run has many exits: every file it reads, every line it reports and every answer it waits for can
end it. `course` puts them in order. As long as nobody else changes the tree while texts are
searched, a run collects, scans and reports without touching a file; then it is over, or the
confirmer is asked, once; and only an answer of yes, or a dry run, leads on to `carryOut`, which is
the only part that removes anything.

What a particular kind of run does is read off by going through the constructors of `Course`, with
`carryOut_cases`, `sumUp_cases` and `discreet_decline` for the parts that come last.
-/

namespace ConsoleSweep

open ConsoleSweep.Action

namespace Setup

/-! ## The parts of a run -/

/-- What is reported about the files that hold statements. -/
def announcement (s : Setup) (scanned : Nat) (results : List ScanResult) : String :=
  String.join (results.map fun r => Report.file s.palette r s.options.dryRun) ++
    Report.scanSummary s.palette (.ofScan scanned results)

/-- Reports the totals of a run. -/
def sumUp (s : Setup) (summary : Summary) : Sweep Outcome := do
  report (Report.finalSummary s.palette summary s.options.dryRun)
  log .info .run ("noconsole run completed: " ++ summary.describe)
  return .completed summary

/-- The removal and its totals. -/
def carryOut (s : Setup) (scanned : Nat) (results : List ScanResult) : Sweep Outcome := do
  let removed ← s.removeAll results
  s.sumUp ⟨scanned, results.length, removed⟩

/-- The end of a run that the user has declined. -/
def decline (s : Setup) : Sweep Outcome := do
  log .info .run "User declined; no files modified."
  report (Report.cancelled s.palette)
  return .cancelled

/-- The question that is put before anything is removed. -/
def question (s : Setup) (scanned : Nat) (results : List ScanResult) : String :=
  Report.prompt s.palette (.ofScan scanned results)

/-- A world in which the question has been put. -/
def asking (s : Setup) (scanned : Nat) (results : List ScanResult) (w : World) : World :=
  { w with asked := w.asked ++ [⟨s.question scanned results, true⟩] }

/-- What follows the report of what was found. -/
def settle (s : Setup) (scanned : Nat) (results : List ScanResult) : Sweep Outcome := do
  let agreed ← if s.options.dryRun then pure true else s.ask (.ofScan scanned results)
  if agreed then s.carryOut scanned results else s.decline

/-- Reports files one after the other. -/
def reportFiles (s : Setup) (results : List ScanResult) : Sweep Unit :=
  forIn results PUnit.unit fun r _ => do
    report (Report.file s.palette r s.options.dryRun)
    return .yield PUnit.unit

/-- Reports what was found. -/
def announce (s : Setup) (scanned : Nat) (results : List ScanResult) : Sweep Unit := do
  s.reportFiles results
  report (Report.scanSummary s.palette (.ofScan scanned results))

/-- The run before it is settled what becomes of the statements: the files are collected and
scanned, and what was found is reported. -/
def opening (s : Setup) : Sweep (Nat × List ScanResult) := do
  log .info .run ("Starting noconsole run in " ++ s.options.root.display ++ " (dry run: " ++
    toString s.options.dryRun ++ ").")
  let files ← s.collectFiles
  let results ← s.scanAll files
  if results.isEmpty then
    log .debug .run ("Scanned " ++ toString files.length ++ " file(s), nothing to remove.")
    report (Report.nothingFound s.palette)
  else
    s.announce files.length results
  return (files.length, results)

theorem finishRun_eq (s : Setup) (scanned : Nat) (results : List ScanResult) :
    s.finishRun scanned results = (do
      s.announce scanned results
      s.settle scanned results) := by
  rw [announce, bind_assoc]
  rfl

/-- A run is its opening, and what follows if anything was found. -/
theorem run_eq (s : Setup) :
    s.run = (do
      let (scanned, results) ← s.opening
      if results.isEmpty then return .nothingFound else s.settle scanned results) := by
  unfold run opening
  simp only [bind_assoc]
  refine bind_congr fun _ => bind_congr fun files => bind_congr fun results => ?_
  cases hempty : results.isEmpty with
  | true => simp only [if_true, bind_assoc, pure_bind, hempty]
  | false => simp only [Bool.false_eq_true, if_false, bind_assoc, pure_bind, hempty, finishRun_eq]

theorem reportFiles_cons (s : Setup) (r : ScanResult) (results : List ScanResult) :
    s.reportFiles (r :: results) = (do
      report (Report.file s.palette r s.options.dryRun)
      s.reportFiles results) := by
  rw [reportFiles, List.forIn_cons, bind_assoc]
  simp only [pure_bind]
  rfl

variable {s : Setup} {scanned : Nat} {results : List ScanResult} {w w' : World} {e : Failure}

/-! ## Reporting what was found -/

/-- What follows the report of a text: everything else, or the failure of a sink that is full. -/
theorem report_bind_cases {α : Type} (text : String) (next : Unit → Sweep α) (w : World) :
    (∃ w', w.Reported text w' ∧ (report text >>= next) w = next () w') ∨
      ∃ w', (report text >>= next) w = .error .sinkFull w' ∧ w' = { w with sink := w'.sink } ∧
        w.sink.room ≠ none := by
  rcases report_cases text w with ⟨v, hreport, hreported⟩ | ⟨v, hreport, hcut⟩
  · exact .inl ⟨v, hreported, bind_of_ok hreport⟩
  · exact .inr ⟨v, bind_of_error hreport, hcut.others, hcut.room⟩

theorem reportFiles_cases (s : Setup) (results : List ScanResult) (w : World) :
    (∃ w', s.reportFiles results w = .ok () w' ∧ w.Reported
        (String.join (results.map fun r => Report.file s.palette r s.options.dryRun)) w') ∨
      ∃ w', s.reportFiles results w = .error .sinkFull w' ∧ w' = { w with sink := w'.sink } ∧
        w.sink.room ≠ none := by
  induction results generalizing w with
  | nil => exact .inl ⟨w, rfl, by simpa using World.Reported.refl w⟩
  | cons r rest ih =>
    rw [reportFiles_cons, List.map_cons, String.join_cons]
    rcases report_bind_cases (Report.file s.palette r s.options.dryRun)
      (fun _ => s.reportFiles rest) w with ⟨v, hreported, hnext⟩ | hfull
    · rw [hnext]
      rcases ih v with ⟨u, hrest, hreported'⟩ | ⟨u, hrest, hsame, hroom⟩
      · exact .inl ⟨u, hrest, hreported.trans hreported'⟩
      · refine .inr ⟨u, hrest, ?_, mt hreported.room.mpr hroom⟩
        rw [hsame, hreported.others]
    · exact .inr hfull

theorem announce_cases (s : Setup) (scanned : Nat) (results : List ScanResult) (w : World) :
    (∃ w', s.announce scanned results w = .ok () w' ∧
        w.Reported (s.announcement scanned results) w') ∨
      ∃ w', s.announce scanned results w = .error .sinkFull w' ∧
        w' = { w with sink := w'.sink } ∧ w.sink.room ≠ none := by
  rw [announce]
  rcases reportFiles_cases s results w with ⟨v, hfiles, hreported⟩ | ⟨v, hfiles, hfull⟩
  · rw [bind_of_ok hfiles]
    rcases report_cases (Report.scanSummary s.palette (.ofScan scanned results)) v with
      ⟨u, hreport, hreported'⟩ | ⟨u, hreport, hcut⟩
    · exact .inl ⟨u, hreport, hreported.trans hreported'⟩
    · refine .inr ⟨u, hreport, ?_, mt hreported.room.mpr hcut.room⟩
      rw [hcut.others, hreported.others]
  · exact .inr ⟨v, bind_of_error hfiles, hfull⟩

/-- After the scan, what was found is reported and the rest follows, or the sink is full. -/
theorem finishRun_cases (s : Setup) (scanned : Nat) (results : List ScanResult) (w : World) :
    (∃ w', w.Reported (s.announcement scanned results) w' ∧
        s.finishRun scanned results w = s.settle scanned results w') ∨
      ∃ w', s.finishRun scanned results w = .error .sinkFull w' ∧
        w' = { w with sink := w'.sink } ∧ w.sink.room ≠ none := by
  rw [finishRun_eq]
  rcases announce_cases s scanned results w with ⟨v, hannounces, hreported⟩ | ⟨v, hfails, hfull⟩
  · exact .inl ⟨v, hreported, bind_of_ok hannounces⟩
  · exact .inr ⟨v, bind_of_error hfails, hfull⟩

/-! ## Settling -/

theorem settle_dry (hdry : s.options.dryRun = true) (w : World) :
    s.settle scanned results w = s.carryOut scanned results w := by
  rw [settle, if_pos hdry]
  rfl

/-- Unless a run is dry, the confirmer is asked, and its answer decides. -/
theorem settle_real (hreal : s.options.dryRun = false) (w : World) :
    s.settle scanned results w =
      (do
        let agreed ← s.confirmer.confirm (s.question scanned results) true
        if agreed then s.carryOut scanned results else s.decline)
      (s.asking scanned results w) := by
  rw [settle, hreal]
  rfl

/-- The totals are reported, or the sink is full. -/
theorem sumUp_cases (s : Setup) (summary : Summary) (w : World) :
    (∃ v w', s.sumUp summary w = .ok (.completed summary) w' ∧
        w.Reported (Report.finalSummary s.palette summary s.options.dryRun) v ∧ v.Quiet w') ∨
      ∃ w', s.sumUp summary w = .error .sinkFull w' ∧ w' = { w with sink := w'.sink } ∧
        w.sink.room ≠ none := by
  rw [sumUp]
  rcases report_bind_cases (Report.finalSummary s.palette summary s.options.dryRun) _ w with
    ⟨v, hreported, hnext⟩ | hfull
  · have hquiet := v.quiet_log .info .run ("noconsole run completed: " ++ summary.describe) nofun
    refine .inl ⟨v, _, hnext.trans ?_, hreported, hquiet⟩
    rw [bind_of_ok (log_eq ..)]
    rfl
  · exact .inr hfull

/-- A real run that gets to the removal strips the files, reports what it removed from each, and
sums up. -/
theorem carryOut_cases (hothers : s.others = .none) (hreal : s.options.dryRun = false)
    (scanned : Nat) (results : List ScanResult) (w : World) :
    (∃ counts v u w', s.carryOut scanned results w =
        .ok (.completed ⟨scanned, results.length, counts.sum⟩) w' ∧
        w.Removed s results counts v ∧
        v.Reported (Report.finalSummary s.palette ⟨scanned, results.length, counts.sum⟩ false) u ∧
        u.Quiet w') ∨
      ∃ e w', s.carryOut scanned results w = .error e w' ∧ w'.asked = w.asked ∧
        (w.sink.room ≠ none ∨ ∃ r ∈ results, ¬ w.tree.Readable (s.options.root.join r.path)) := by
  rw [carryOut]
  rcases removeAll_cases hothers hreal results w with
    ⟨counts, v, hremoves, hremoved⟩ | ⟨e, v, hfails, hasked, hcause⟩
  · rw [bind_of_ok hremoves]
    have hsums := sumUp_cases s ⟨scanned, results.length, counts.sum⟩ v
    rw [hreal] at hsums
    rcases hsums with ⟨u, w', hsums, hreported, hquiet⟩ | ⟨u, hfails, hsame, hroom⟩
    · exact .inl ⟨counts, v, u, w', hsums, hremoved, hreported, hquiet⟩
    · refine .inr ⟨_, u, hfails, ?_, .inl (mt hremoved.room.mpr hroom)⟩
      rw [hsame]
      exact hremoved.asked
  · exact .inr ⟨e, v, bind_of_error hfails, hasked, hcause⟩

/-- A dry run sums up what was scanned. -/
theorem carryOut_dry (hdry : s.options.dryRun = true) (scanned : Nat) (results : List ScanResult)
    (w : World) : s.carryOut scanned results w =
      s.sumUp ⟨scanned, results.length, (results.map (·.count)).sum⟩ w := by
  rw [carryOut, bind_of_ok (removeAll_dry hdry results w)]

/-- Summing up keeps away from files. -/
theorem discreet_sumUp (s : Setup) (summary : Summary) : Discreet (s.sumUp summary) :=
  (discreet_report _).bind fun _ => (discreet_log _ _ _).bind fun _ => discreet_pure _

/-- Declining keeps away from files. -/
theorem discreet_decline (s : Setup) : Discreet s.decline :=
  (discreet_log _ _ _).bind fun _ => (discreet_report _).bind fun _ => discreet_pure _

/-! ## The courses -/

/-- From one world to another, the files of a run were collected, and all of them were scanned. -/
structure Surveyed (s : Setup) (files : List Path) (w w' : World) : Prop where
  collected : collect s.options w.tree = .ok files
  readable : ∀ file ∈ files, w.tree.Readable (s.options.root.join file)
  quiet : w.Quiet w'

/-- From one world to another, the files of a run were collected, all of them were scanned, and what
was found in them was reported. -/
structure Announced (s : Setup) (files : List Path) (w w' : World) : Prop where
  found : s.found w.tree files ≠ []
  reported : ∃ v, s.Surveyed files w v ∧
    v.Reported (s.announcement files.length (s.found w.tree files)) w'

theorem Announced.tree {files : List Path} (h : s.Announced files w w') : w'.tree = w.tree := by
  obtain ⟨v, hsurveyed, hreported⟩ := h.reported
  rw [hreported.others, hsurveyed.quiet.tree]

theorem Announced.asked {files : List Path} (h : s.Announced files w w') : w'.asked = w.asked := by
  obtain ⟨v, hsurveyed, hreported⟩ := h.reported
  rw [hreported.others, hsurveyed.quiet.asked]

theorem Announced.input {files : List Path} (h : s.Announced files w w') : w'.input = w.input := by
  obtain ⟨v, hsurveyed, hreported⟩ := h.reported
  rw [hreported.others, hsurveyed.quiet.input]

/-- How the opening of a run ends, from a world. -/
inductive Opened (s : Setup) (w : World) :
    EStateM.Result Failure World (Nat × List ScanResult) → Prop where
  /-- The files cannot be collected. -/
  | uncollected {fault : CollectFault} {w' : World}
      (hcollect : collect s.options w.tree = .error fault) (hquiet : w.Quiet w') :
      Opened s w (.error (.collecting s.options.root fault) w')
  /-- A file cannot be read. -/
  | unscanned {files : List Path} {file : Path} {fault : Fault} {w' : World}
      (hcollect : collect s.options w.tree = .ok files) (hfile : file ∈ files)
      (hread : w.tree.readText (s.options.root.join file) = .error fault) (hquiet : w.Quiet w') :
      Opened s w (.error (.scanning file (.unreadable (s.options.root.join file) fault)) w')
  /-- The sink is full. -/
  | unreported {files : List Path} {v w' : World} (hsurveyed : s.Surveyed files w v)
      (hsame : w' = { v with sink := w'.sink }) (hroom : w.sink.room ≠ none) :
      Opened s w (.error .sinkFull w')
  /-- No file holds a statement. -/
  | nothingFound {files : List Path} {v w' : World} (hsurveyed : s.Surveyed files w v)
      (hnone : s.found w.tree files = [])
      (hreported : v.Reported (Report.nothingFound s.palette) w') :
      Opened s w (.ok (files.length, []) w')
  /-- What was found has been reported. -/
  | announced {files : List Path} {w' : World} (hannounced : s.Announced files w w') :
      Opened s w (.ok (files.length, s.found w.tree files) w')

/-- Every run opens in one of these ways. -/
theorem opened (hfind : s.others.duringFind = Interference.none.duringFind) (w : World) :
    Opened s w (s.opening w) := by
  have hstart := w.quiet_log .info .run ("Starting noconsole run in " ++
    s.options.root.display ++ " (dry run: " ++ toString s.options.dryRun ++ ").") nofun
  rw [opening, bind_of_ok (log_eq ..)]
  rcases collectFiles_cases s _ with
    ⟨files, w₁, hcollect, hcollects, hquiet⟩ | ⟨fault, w₁, hcollect, hcollects, hquiet⟩
  · rw [bind_of_ok hcollects]
    have hquiet₁ := hstart.trans hquiet
    have hscan := scanAll_cases hfind files w₁
    rw [hquiet₁.tree] at hscan
    rcases hscan with ⟨w₂, hscans, hquiet₂, hreadable⟩ |
      ⟨w₂, file, hfile, fault, hread, hscans, hquiet₂⟩
    · rw [bind_of_ok hscans]
      have hsurveyed : s.Surveyed files w w₂ := ⟨hcollect, hreadable, hquiet₁.trans hquiet₂⟩
      -- all files have been scanned: what was found is reported, or that nothing was
      by_cases hnone : s.found w.tree files = []
      · have hsurveyed' : s.Surveyed files w _ :=
          { hsurveyed with quiet := hsurveyed.quiet.trans (w₂.quiet_log .debug .run
            ("Scanned " ++ toString files.length ++ " file(s), nothing to remove.") nofun) }
        rw [hnone, if_pos List.isEmpty_nil, bind_of_ok (log_eq ..)]
        rcases report_bind_cases (Report.nothingFound s.palette) _ _ with
          ⟨w₃, hreported, hnext⟩ | ⟨w₃, hfails, hsame, hroom⟩
        · rw [hnext]
          exact .nothingFound hsurveyed' hnone hreported
        · rw [hfails]
          exact .unreported hsurveyed' hsame (by rwa [hsurveyed'.quiet.sink] at hroom)
      · rw [if_neg (by simpa using hnone)]
        rcases announce_cases s files.length (s.found w.tree files) w₂ with
          ⟨w₃, hannounces, hreported⟩ | ⟨w₃, hfails, hsame, hroom⟩
        · rw [bind_of_ok hannounces]
          exact .announced ⟨hnone, w₂, hsurveyed, hreported⟩
        · rw [bind_of_error hfails]
          exact .unreported hsurveyed hsame (by rwa [hsurveyed.quiet.sink] at hroom)
    · rw [bind_of_error hscans]
      exact .unscanned hcollect hfile hread (hquiet₁.trans hquiet₂)
  · rw [bind_of_error hcollects]
    exact .uncollected hcollect (hstart.trans hquiet)

/-- The courses a run can take from a world, with how they end. -/
inductive Course (s : Setup) (w : World) : EStateM.Result Failure World Outcome → Prop where
  /-- The files cannot be collected. -/
  | uncollected {fault : CollectFault} {w' : World}
      (hcollect : collect s.options w.tree = .error fault) (hquiet : w.Quiet w') :
      Course s w (.error (.collecting s.options.root fault) w')
  /-- A file cannot be read. -/
  | unscanned {files : List Path} {file : Path} {fault : Fault} {w' : World}
      (hcollect : collect s.options w.tree = .ok files) (hfile : file ∈ files)
      (hread : w.tree.readText (s.options.root.join file) = .error fault) (hquiet : w.Quiet w') :
      Course s w (.error (.scanning file (.unreadable (s.options.root.join file) fault)) w')
  /-- No file holds a statement. -/
  | nothingFound {files : List Path} {v w' : World} (hsurveyed : s.Surveyed files w v)
      (hnone : s.found w.tree files = [])
      (hreported : v.Reported (Report.nothingFound s.palette) w') :
      Course s w (.ok .nothingFound w')
  /-- The sink is full before there is a question. -/
  | unreported {files : List Path} {v w' : World} (hsurveyed : s.Surveyed files w v)
      (hsame : w' = { v with sink := w'.sink }) (hroom : w.sink.room ≠ none) :
      Course s w (.error .sinkFull w')
  /-- A dry run has no question. -/
  | dry {files : List Path} {v : World} (hdry : s.options.dryRun = true)
      (hannounced : s.Announced files w v) :
      Course s w (s.carryOut files.length (s.found w.tree files) v)
  /-- The confirmer fails. -/
  | unanswered {files : List Path} {v w' : World} {e : Failure} (hreal : s.options.dryRun = false)
      (hannounced : s.Announced files w v)
      (hconfirm : s.confirmer.confirm (s.question files.length (s.found w.tree files)) true
        (s.asking files.length (s.found w.tree files) v) = .error e w') : Course s w (.error e w')
  /-- The answer is no. -/
  | declined {files : List Path} {v w' : World} (hreal : s.options.dryRun = false)
      (hannounced : s.Announced files w v)
      (hconfirm : s.confirmer.confirm (s.question files.length (s.found w.tree files)) true
        (s.asking files.length (s.found w.tree files) v) = .ok false w') :
      Course s w (s.decline w')
  /-- The answer is yes. -/
  | agreed {files : List Path} {v w' : World} (hreal : s.options.dryRun = false)
      (hannounced : s.Announced files w v)
      (hconfirm : s.confirmer.confirm (s.question files.length (s.found w.tree files)) true
        (s.asking files.length (s.found w.tree files) v) = .ok true w') :
      Course s w (s.carryOut files.length (s.found w.tree files) w')

/-- Once what was found has been reported, a run is dry, or the confirmer decides. -/
theorem course_of_announced {files : List Path} {v : World} (h : s.Announced files w v) :
    Course s w (s.settle files.length (s.found w.tree files) v) := by
  cases hdry : s.options.dryRun with
  | true =>
    rw [settle_dry hdry]
    exact .dry hdry h
  | false =>
    rw [settle_real hdry]
    cases hconfirm : s.confirmer.confirm (s.question files.length (s.found w.tree files)) true
      (s.asking files.length (s.found w.tree files) v) with
    | error e w' =>
      rw [bind_of_error hconfirm]
      exact .unanswered hdry h hconfirm
    | ok agreed w' =>
      rw [bind_of_ok hconfirm]
      cases agreed with
      | false => exact .declined hdry h hconfirm
      | true => exact .agreed hdry h hconfirm

/-- A run whose opening fails, fails alike. -/
theorem run_of_opening_error (h : s.opening w = .error e w') : s.run w = .error e w' := by
  rw [run_eq, bind_of_error h]

/-- A run that has opened goes on if it has found anything. -/
theorem run_of_opening (h : s.opening w = .ok (scanned, results) w') :
    s.run w = if results = [] then .ok .nothingFound w' else s.settle scanned results w' := by
  rw [run_eq, bind_of_ok h]
  simp only [List.isEmpty_iff]
  split <;> rfl

/-- **Every run takes one of the courses.** -/
theorem course (hfind : s.others.duringFind = Interference.none.duringFind) (w : World) :
    Course s w (s.run w) := by
  have hopened := opened hfind w
  generalize hopening : s.opening w = r at hopened
  cases hopened with
  | uncollected hcollect hquiet =>
    rw [run_of_opening_error hopening]
    exact .uncollected hcollect hquiet
  | unscanned hcollect hfile hread hquiet =>
    rw [run_of_opening_error hopening]
    exact .unscanned hcollect hfile hread hquiet
  | unreported hsurveyed hsame hroom =>
    rw [run_of_opening_error hopening]
    exact .unreported hsurveyed hsame hroom
  | nothingFound hsurveyed hnone hreported =>
    rw [run_of_opening hopening, if_pos rfl]
    exact .nothingFound hsurveyed hnone hreported
  | announced hannounced =>
    rw [run_of_opening hopening, if_neg hannounced.found]
    exact course_of_announced hannounced

/-- A run that is declined is not completed. -/
theorem eq_cancelled_of_decline {outcome : Outcome} (h : s.decline w = .ok outcome w') :
    outcome = .cancelled := by
  obtain ⟨_, v, -, hreports⟩ := bind_eq_ok h
  obtain ⟨_, u, -, hreturns⟩ := bind_eq_ok hreports
  cases hreturns
  rfl

/-- A run is completed by its removal, which is dry or has been agreed to. -/
theorem exists_carryOut_of_completed (hfind : s.others.duringFind = Interference.none.duringFind)
    {summary : Summary}
    (h : s.run w = .ok (.completed summary) w') :
    ∃ files v u, s.Announced files w v ∧
      s.carryOut files.length (s.found w.tree files) u = .ok (.completed summary) w' ∧
      (s.options.dryRun = true ∧ u = v ∨
        s.options.dryRun = false ∧
          s.confirmer.confirm (s.question files.length (s.found w.tree files)) true
            (s.asking files.length (s.found w.tree files) v) = .ok true u) := by
  have hcourse := course hfind w
  generalize s.run w = r at hcourse h
  cases hcourse with
  | uncollected => cases h
  | unscanned => cases h
  | nothingFound => cases h
  | unreported => cases h
  | unanswered => cases h
  | declined =>
    have hcancelled := eq_cancelled_of_decline h
    cases hcancelled
  | dry hdry hannounced => exact ⟨_, _, _, hannounced, h, .inl ⟨hdry, rfl⟩⟩
  | agreed hreal hannounced hconfirm => exact ⟨_, _, _, hannounced, h, .inr ⟨hreal, hconfirm⟩⟩

end Setup

end ConsoleSweep
