import Mathlib.Algebra.Order.BigOperators.Group.List
import ConsoleSweep.Proofs.Sweep.Reread

/-!
# The report adds up

The numbers of a run are worked out in several places: when the files are scanned, before the
question is put, while statements are removed, and at the end. `Account` spells out, line by line,
what a run that ends well tells about them, and `report_adds_up` says that it is what every such run
tells, whatever others do to the tree meanwhile: there is one section for each file in which
statements were found, the totals are those of the sections, the question repeats them, there is one
line about the removal for each section, and the final totals and the outcome are those of these
lines.

## Shape of the proof

* Without colours, every part of the report is a list of lines (`file_eq_text` and its like).
* `World.Told` is what a part of a run adds to the report and to the questions. It composes.
* What a run tells is put together from its last part to its first: `told_removeAll`, `told_sumUp`,
  `told_decline`, `told_settle`, `account_of_finishRun`.
-/

namespace ConsoleSweep

open ConsoleSweep.Action

/-! ## What a run tells -/

namespace Account

/-- Lines as a text. -/
def text (lines : List String) : String := String.join (lines.map (· ++ "\n"))

/-- The number of statements found. -/
def total (found : List ScanResult) : ℕ := (found.map (·.count)).sum

/-- The lines about a file in which statements were found: their number or, in a dry run, the
statements. -/
def fileLines (dryRun : Bool) (r : ScanResult) : List String :=
  if dryRun then
    "" :: ("File: " ++ r.path.display) :: r.statements.map ("  Would remove: " ++ ·)
  else [r.path.display ++ ": " ++ toString r.count ++ " console statement(s)"]

/-- The lines about the scan: a section for each file, and the totals. -/
def scanLines (dryRun : Bool) (scanned : ℕ) (found : List ScanResult) : List String :=
  found.flatMap (fileLines dryRun) ++
    ["", "Found " ++ toString (total found) ++ " console statement(s) in " ++
      toString found.length ++ " of " ++ toString scanned ++ " file(s)."]

/-- The question. -/
def question (found : List ScanResult) : String :=
  "Remove " ++ toString (total found) ++ " console statement(s) from " ++
    toString found.length ++ " file(s)?"

/-- The line about the removal of statements from a file. -/
def removalLine (r : ScanResult) (count : ℕ) : String :=
  "Removed " ++ toString count ++ " console statements from " ++ r.path.display

/-- The lines about the totals of a run. -/
def summaryLines (dryRun : Bool) (scanned withMatches removed : ℕ) : List String :=
  ["", "Summary:", "Files processed: " ++ toString scanned,
    "Files containing console statements: " ++ toString withMatches,
    "Total console statements " ++ (if dryRun then "that would be " else "") ++ "removed: " ++
      toString removed] ++
    if dryRun then ["", "This was a dry run. No files were modified."] else []

end Account

open Account in
/-- How a run that has looked at `scanned` files and found statements in some of them accounts for
itself: the lines it reports, the questions it puts, and its outcome. -/
inductive Account (dryRun : Bool) (scanned : ℕ) (found : List ScanResult) :
    (lines questions : List String) → Outcome → Prop where
  /-- There is nothing else to tell. -/
  | nothingFound (hnone : found = []) :
      Account dryRun scanned found ["No console statements found."] [] .nothingFound
  /-- The answer is no. -/
  | cancelled (hsome : found ≠ []) (hreal : dryRun = false) :
      Account dryRun scanned found
        (scanLines dryRun scanned found ++ ["Operation cancelled. No files were modified."])
        [question found] .cancelled
  /-- The answer is yes. So many statements are removed from each of the files. -/
  | removed {counts : List ℕ} (hsome : found ≠ []) (hreal : dryRun = false)
      (hlength : counts.length = found.length) :
      Account dryRun scanned found
        (scanLines dryRun scanned found ++ List.zipWith removalLine found counts ++
          summaryLines dryRun scanned found.length counts.sum)
        [question found] (.completed ⟨scanned, found.length, counts.sum⟩)
  /-- There is no question. -/
  | dry (hsome : found ≠ []) (hdry : dryRun = true) :
      Account dryRun scanned found
        (scanLines dryRun scanned found ++ summaryLines dryRun scanned found.length (total found))
        [] (.completed ⟨scanned, found.length, total found⟩)

/-! ## Numbers of statements -/

section Numbers

variable {results : List ScanResult} {files : List Path} {texts : List String}

theorem hasMatches_of_mem_withStatements {r : ScanResult} (hr : r ∈ withStatements files texts) :
    r.hasMatches :=
  (List.mem_filter.mp hr).2

theorem length_withStatements_le : (withStatements files texts).length ≤ files.length :=
  calc (withStatements files texts).length
      ≤ (List.zipWith ScanResult.ofText files texts).length := List.length_filter_le _ _
    _ = min files.length texts.length := List.length_zipWith
    _ ≤ files.length := Nat.min_le_left _ _

/-- A file that holds statements holds one at least. -/
theorem length_le_total (hall : ∀ r ∈ results, r.hasMatches) :
    results.length ≤ Account.total results := by
  have hcounts : ∀ n ∈ results.map (·.count), 1 ≤ n := by
    intro n hn
    obtain ⟨r, hr, rfl⟩ := List.mem_map.mp hn
    have hne : r.statements ≠ [] := by simpa [ScanResult.hasMatches] using hall r hr
    exact List.length_pos_iff.mpr hne
  calc results.length = (results.map (·.count)).length := (List.length_map _).symm
    _ ≤ Account.total results := List.length_le_sum_of_one_le _ hcounts

/-- The totals of the scan count every file with statements, and every statement. -/
theorem ofScan_eq (hall : ∀ r ∈ results, r.hasMatches) (scanned : ℕ) :
    Summary.ofScan scanned results = ⟨scanned, results.length, Account.total results⟩ := by
  simp only [Summary.ofScan, List.filter_eq_self.mpr hall]
  rfl

end Numbers

/-! ## The parts of the report without colours -/

namespace Account

theorem text_nil : text [] = "" := rfl

theorem text_cons (line : String) (lines : List String) :
    text (line :: lines) = line ++ "\n" ++ text lines := by
  simp [text]

theorem text_map {α : Type} (f : α → String) (items : List α) :
    text (items.map f) = String.join (items.map fun item => f item ++ "\n") := by
  rw [text, List.map_map]
  rfl

theorem text_append (lines lines' : List String) :
    text (lines ++ lines') = text lines ++ text lines' := by
  simp [text, String.join_append]

theorem text_flatMap {α : Type} (f : α → List String) (items : List α) :
    text (items.flatMap f) = String.join (items.map fun item => text (f item)) := by
  induction items with
  | nil => rfl
  | cons item rest ih => rw [List.flatMap_cons, text_append, ih, List.map_cons, String.join_cons]

variable {p : Palette} (hplain : p.colored = false)
include hplain

theorem paint_eq (text : String) (entry : Entry) : p.paint text entry = text := by
  rw [Palette.paint, hplain, if_neg Bool.false_ne_true]

theorem line_eq (text : String) (entry : Entry) : p.line text entry = text ++ "\n" := by
  rw [Palette.line, paint_eq hplain]

theorem file_eq_text (dryRun : Bool) (r : ScanResult) :
    Report.file p r dryRun = text (fileLines dryRun r) := by
  cases dryRun with
  | true =>
    have hheader : "\nFile: " = "\n" ++ "File: " := rfl
    simp only [Report.file, fileLines, if_true, paint_eq hplain, text_cons, text_map, hheader,
      String.append_assoc, String.empty_append]
  | false =>
    have hend : " console statement(s)\n" = " console statement(s)" ++ "\n" := rfl
    simp only [Report.file, fileLines, Bool.false_eq_true, if_false, paint_eq hplain, text_cons,
      text_nil, hend, String.append_assoc, String.append_empty]

theorem scanSummary_eq_text (summary : Summary) :
    Report.scanSummary p summary = text ["", "Found " ++ toString summary.removed ++
      " console statement(s) in " ++ toString summary.withMatches ++ " of " ++
      toString summary.scanned ++ " file(s)."] := by
  simp [Report.scanSummary, text, line_eq hplain]

theorem finalSummary_eq_text (summary : Summary) (dryRun : Bool) :
    Report.finalSummary p summary dryRun =
      text (summaryLines dryRun summary.scanned summary.withMatches summary.removed) := by
  unfold Report.finalSummary
  cases dryRun with
  | true =>
    simp only [summaryLines, paint_eq hplain, line_eq hplain, List.cons_append, List.nil_append,
      text_cons, text_nil, if_true, String.append_assoc, String.append_empty, String.empty_append]
  | false =>
    simp only [summaryLines, paint_eq hplain, line_eq hplain, List.append_nil, text_cons, text_nil,
      Bool.false_eq_true, if_false, String.append_assoc, String.append_empty, String.empty_append]

theorem nothingFound_eq_text :
    Report.nothingFound p = text ["No console statements found."] := by
  simp [Report.nothingFound, text, line_eq hplain]

theorem cancelled_eq_text :
    Report.cancelled p = text ["Operation cancelled. No files were modified."] := by
  simp [Report.cancelled, text, line_eq hplain]

theorem removed_eq_text (r : ScanResult) (count : ℕ) :
    Report.removed p r.path count = text [removalLine r count] := by
  simp [Report.removed, removalLine, text, line_eq hplain]

end Account

/-! ## What parts of a run tell -/

/-- From one world to another, lines were reported and questions put, which take an empty reply for
a yes. Whatever else was done is left open. -/
structure World.Told (lines questions : List String) (w w' : World) : Prop where
  written : w'.sink.written = w.sink.written ++ Utf8.encode (Account.text lines)
  asked : w'.asked = w.asked ++ questions.map fun question => ⟨question, true⟩

namespace World

variable {lines lines' questions questions' : List String} {w w' w'' : World}

theorem told_of_same (hwritten : w'.sink.written = w.sink.written) (hasked : w'.asked = w.asked) :
    w.Told [] [] w' where
  written := by simp [hwritten, Account.text_nil, Utf8.encode]
  asked := by simp [hasked]

theorem Quiet.told (h : w.Quiet w') : w.Told [] [] w' :=
  told_of_same (by rw [h.sink]) h.asked

theorem Reported.told {text : String} (h : w.Reported text w') (htext : text = Account.text lines) :
    w.Told lines [] w' where
  written := htext ▸ h.written
  asked := by rw [h.others]; simp

theorem Told.trans (h : w.Told lines questions w') (h' : w'.Told lines' questions' w'') :
    w.Told (lines ++ lines') (questions ++ questions') w'' where
  written := by
    rw [h'.written, h.written, Account.text_append, Utf8.encode_append, List.append_assoc]
  asked := by rw [h'.asked, h.asked, List.map_append, List.append_assoc]

end World

/-- A confirmer that writes nothing to the sink itself. It may do anything else, such as changing
files, but it cannot pretend that other questions were put. -/
structure Confirmer.Silent (c : Confirmer) : Prop where
  written : ∀ question default w,
    (ending (c.confirm question default w)).sink.written = w.sink.written
  asked : ∀ question default w, (ending (c.confirm question default w)).asked = w.asked

theorem Confirmer.silent_fixed (answer : Bool) : (fixed answer).Silent where
  written _ _ _ := rfl
  asked _ _ _ := rfl

theorem reported_of_ok {text : String} {w w' : World} (h : report text w = .ok () w') :
    w.Reported text w' := by
  rcases report_cases text w with ⟨v, hreport, hreported⟩ | ⟨v, hreport, -⟩
  · cases h.symm.trans hreport
    exact hreported
  · cases h.symm.trans hreport

namespace Setup

variable {s : Setup} {scanned : ℕ} {results : List ScanResult} {w w' : World} {outcome : Outcome}

section Parts

variable (hplain : s.palette.colored = false)
include hplain

/-- The removal tells how many statements were removed from each file, whatever others do
meanwhile. -/
theorem told_removeAll (hreal : s.options.dryRun = false) {removed : ℕ}
    (h : s.removeAll results w = .ok removed w') :
    ∃ counts : List ℕ, counts.length = results.length ∧ removed = counts.sum ∧
      w.Told (List.zipWith Account.removalLine results counts) [] w' := by
  rcases handleAll_cases hreal results w with
    ⟨texts, v, hremoves, hall⟩ | ⟨_, _, _, _, _, _, -, -, -, -, hfails⟩
  · cases h.symm.trans hremoves
    refine ⟨_, by rw [List.length_map, hall.length_eq], rfl, ?_, by rw [hall.asked]; simp⟩
    rw [hall.written, Account.text, List.map_zipWith, List.zipWith_map_right]
    simp only [Account.removed_eq_text hplain]
    rfl
  · cases h.symm.trans hfails

theorem told_sumUp {summary : Summary} (h : s.sumUp summary w = .ok outcome w') :
    outcome = .completed summary ∧ w.Told (Account.summaryLines s.options.dryRun summary.scanned
      summary.withMatches summary.removed) [] w' := by
  rcases sumUp_cases s summary w with ⟨v, u, hsums, hreported, hquiet⟩ | ⟨u, hfails, -⟩
  · cases h.symm.trans hsums
    have htold := (hreported.told (Account.finalSummary_eq_text hplain _ _)).trans hquiet.told
    rw [List.append_nil] at htold
    exact ⟨rfl, htold⟩
  · cases h.symm.trans hfails

theorem told_decline (h : s.decline w = .ok outcome w') :
    outcome = .cancelled ∧
      w.Told ["Operation cancelled. No files were modified."] [] w' := by
  obtain ⟨_, v, hlogs, hrest⟩ := bind_eq_ok h
  obtain ⟨_, u, hreports, hreturns⟩ := bind_eq_ok hrest
  cases hlogs
  cases hreturns
  have hquiet := w.quiet_log .info .run "User declined; no files modified." nofun
  exact ⟨rfl, hquiet.told.trans
    ((reported_of_ok hreports).told (Account.cancelled_eq_text hplain))⟩

theorem announcement_eq_text (hall : ∀ r ∈ results, r.hasMatches) (scanned : ℕ) :
    s.announcement scanned results =
      Account.text (Account.scanLines s.options.dryRun scanned results) := by
  simp only [announcement, Account.file_eq_text hplain, Account.scanSummary_eq_text hplain,
    ofScan_eq hall, Account.scanLines, Account.text_append, Account.text_flatMap]

theorem question_eq (hall : ∀ r ∈ results, r.hasMatches) (scanned : ℕ) :
    s.question scanned results = Account.question results := by
  rw [question, Report.prompt, Account.paint_eq hplain, ofScan_eq hall]
  rfl

/-- What a real run tells after it has reported what was found: the question, and what follows from
the answer. -/
theorem told_settle (hsilent : s.confirmer.Silent) (hall : ∀ r ∈ results, r.hasMatches)
    (hreal : s.options.dryRun = false) (h : s.settle scanned results w = .ok outcome w') :
    (outcome = .cancelled ∧ w.Told ["Operation cancelled. No files were modified."]
        [Account.question results] w') ∨
      ∃ counts : List ℕ, counts.length = results.length ∧
        outcome = .completed ⟨scanned, results.length, counts.sum⟩ ∧
        w.Told (List.zipWith Account.removalLine results counts ++
          Account.summaryLines false scanned results.length counts.sum)
          [Account.question results] w' := by
  rw [settle_real hreal] at h
  obtain ⟨agreed, v, hconfirm, hrest⟩ := bind_eq_ok h
  have hasks : w.Told [] [Account.question results] v :=
    { written := by
        have hwritten := hsilent.written (s.question scanned results) true
          (s.asking scanned results w)
        rw [hconfirm] at hwritten
        rw [Account.text_nil, show Utf8.encode "" = [] from rfl, List.append_nil]
        exact hwritten
      asked := by
        have hasked := hsilent.asked (s.question scanned results) true (s.asking scanned results w)
        rw [hconfirm] at hasked
        rw [← question_eq hplain hall scanned]
        exact hasked }
  cases agreed with
  | false =>
    obtain ⟨houtcome, hdeclines⟩ := told_decline hplain hrest
    exact .inl ⟨houtcome, hasks.trans hdeclines⟩
  | true =>
    obtain ⟨removed, u, hremoves, hsums⟩ := bind_eq_ok hrest
    obtain ⟨counts, hlength, rfl, hremoved⟩ := told_removeAll hplain hreal hremoves
    obtain ⟨houtcome, hsummed⟩ := told_sumUp hplain hsums
    rw [hreal] at hsummed
    exact .inr ⟨counts, hlength, houtcome, hasks.trans (hremoved.trans hsummed)⟩

/-- A run that has found something accounts for itself. -/
theorem account_of_finishRun (hsilent : s.confirmer.Silent) (hall : ∀ r ∈ results, r.hasMatches)
    (hsome : results ≠ []) (h : s.finishRun scanned results w = .ok outcome w') :
    ∃ lines questions, Account s.options.dryRun scanned results lines questions outcome ∧
      w.Told lines questions w' := by
  rcases finishRun_cases s scanned results w with ⟨v, hreported, hnext⟩ | ⟨v, hfails, -⟩
  · rw [hnext] at h
    have hscan := hreported.told (announcement_eq_text hplain hall scanned)
    cases hdry : s.options.dryRun with
    | true =>
      rw [settle_dry hdry, carryOut_dry hdry] at h
      obtain ⟨rfl, hsummed⟩ := told_sumUp hplain h
      rw [hdry] at hscan hsummed
      exact ⟨_, _, .dry hsome rfl, hscan.trans hsummed⟩
    | false =>
      rw [hdry] at hscan
      rcases told_settle hplain hsilent hall hdry h with
        ⟨rfl, hdeclined⟩ | ⟨counts, hlength, rfl, hremoved⟩
      · exact ⟨_, _, .cancelled hsome rfl, hscan.trans hdeclined⟩
      · refine ⟨_, _, .removed hsome rfl hlength, ?_⟩
        rw [List.append_assoc]
        exact hscan.trans hremoved
  · cases h.symm.trans hfails

end Parts

/-- **The report adds up.** A run that does not fail reports what `Account` says and nothing else,
about the statements that its scan has found in the files it has collected, and puts the question
that `Account` says; so its outcome, its question and its report agree on every number. There are no
more files with statements than files, and no more than statements. -/
theorem report_adds_up (s : Setup) (hplain : s.palette.colored = false)
    (hsilent : s.confirmer.Silent) {w w' : World} {outcome : Outcome}
    (h : s.run w = .ok outcome w') :
    ∃ files texts tree lines questions, collect s.options w.tree = .ok files ∧
      w.tree.readings (fun _ => s.others.duringFind) (files.map s.options.root.join) =
        .ok (texts, tree) ∧
      let found := withStatements files texts
      Account s.options.dryRun files.length found lines questions outcome ∧
        w'.sink.written = w.sink.written ++ Utf8.encode (Account.text lines) ∧
        w'.asked = w.asked ++ questions.map (fun question => ⟨question, true⟩) ∧
        found.length ≤ files.length ∧ found.length ≤ Account.total found := by
  have hrun : s.runAmid (fun _ => s.others.duringFind) w = .ok outcome w' := by
    rw [runAmid_const]
    exact h
  rcases runAmid_cases s (fun _ => s.others.duringFind) w with
    ⟨files, texts, tree, v, hcollect, hscan, hquiet, hruns⟩ | ⟨_, _, _, hfails, -, -⟩
  · have hall : ∀ r ∈ withStatements files texts, r.hasMatches :=
      fun r => hasMatches_of_mem_withStatements
    rw [hruns] at hrun
    obtain ⟨lines, questions, haccount, htold⟩ : ∃ lines questions,
        Account s.options.dryRun files.length (withStatements files texts) lines questions
          outcome ∧ v.Told lines questions w' := by
      by_cases hnone : withStatements files texts = []
      · rw [conclude, if_pos (by rw [hnone]; rfl), bind_of_ok (log_eq ..)] at hrun
        obtain ⟨_, u, hreports, hreturns⟩ := bind_eq_ok hrun
        cases hreturns
        have hquiet' := v.quiet_log .debug .run
          ("Scanned " ++ toString files.length ++ " file(s), nothing to remove.") (by decide)
        exact ⟨_, _, .nothingFound hnone, hquiet'.told.trans
          ((reported_of_ok hreports).told (Account.nothingFound_eq_text hplain))⟩
      · rw [conclude, if_neg (by simpa using hnone)] at hrun
        exact account_of_finishRun hplain hsilent hall hnone hrun
    have htells := hquiet.told.trans htold
    exact ⟨files, texts, tree, lines, questions, hcollect, hscan, haccount, htells.written,
      htells.asked, length_withStatements_le, length_le_total hall⟩
  · cases hrun.symm.trans hfails

set_option maxRecDepth 10000 in
theorem report_adds_up_linked :
    ∃ w' lines,
      agreedHere.run (.start fileAndLinkTree none []) = .ok (.completed ⟨2, 2, 1⟩) w' ∧
      Account false 2 [⟨.ofString "a.js", ["console.log(1);"]⟩,
        ⟨.ofString "b.js", ["console.log(1);"]⟩] lines
        ["Remove 2 console statement(s) from 2 file(s)?"] (.completed ⟨2, 2, 1⟩) ∧
      w'.sink.written = Utf8.encode (Account.text lines) := by
  obtain ⟨w', h⟩ : ∃ w',
      agreedHere.run (.start fileAndLinkTree none []) = .ok (.completed ⟨2, 2, 1⟩) w' :=
    ⟨_, eq_ok_of_result? (by decide +kernel)⟩
  have hcollect : collect agreedHere.options fileAndLinkTree =
      .ok [.ofString "a.js", .ofString "b.js"] := by
    decide +kernel
  obtain ⟨files, texts, tree, lines, questions, hcollect', hscan, haccount, hwritten, -⟩ :=
    report_adds_up agreedHere rfl (Confirmer.silent_fixed true) h
  cases hcollect.symm.trans hcollect'
  have hfirst : fileAndLinkTree.readText (.ofString "./a.js") = .ok "console.log(1);" := by
    decide +kernel
  have hsecond : fileAndLinkTree.readText (.ofString "./b.js") = .ok "console.log(1);" := by
    decide +kernel
  have hread : fileAndLinkTree.readings (fun _ => agreedHere.others.duringFind)
      [.ofString "./a.js", .ofString "./b.js"] =
        .ok (["console.log(1);", "console.log(1);"], fileAndLinkTree) :=
    FileTree.readings_of_ok hfirst (FileTree.readings_of_ok hsecond rfl)
  cases hread.symm.trans hscan
  have hfound : withStatements [.ofString "a.js", .ofString "b.js"]
      ["console.log(1);", "console.log(1);"] = [⟨.ofString "a.js", ["console.log(1);"]⟩,
        ⟨.ofString "b.js", ["console.log(1);"]⟩] := by
    decide +kernel
  rw [hfound] at haccount
  have hquestions : questions = ["Remove 2 console statement(s) from 2 file(s)?"] := by
    clear hwritten
    generalize Outcome.completed ⟨2, 2, 1⟩ = outcome at haccount
    cases haccount with
    | nothingFound hnone => cases hnone
    | cancelled => decide +kernel
    | removed => decide +kernel
    | dry _ hdry => cases hdry
  subst hquestions
  exact ⟨w', lines, h, haccount, hwritten⟩

end Setup

end ConsoleSweep
