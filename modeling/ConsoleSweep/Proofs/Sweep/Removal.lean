import Mathlib.Algebra.Order.Ring.Nat
import ConsoleSweep.Proofs.FileTree.Strip
import ConsoleSweep.Proofs.Sweep.Survey

/-!
# The part of a run that changes files

After the files have been scanned, a run reads each file with statements again, strips it, writes it
back and reports how many statements it removed. A file is either dealt with in full, which is
`World.Handled`, or it is where the removal ends, which is `World.Blocked`: the file cannot be read,
it cannot be written, or the line about it does not fit into the sink. That holds whatever somebody
else does to the tree meanwhile, and `handleAll_cases` says what a list of files comes to: those
before a blocked one have been handled, and those after it have not been looked at.

As long as nobody else changes the tree, handling files is stripping them one after the other, as
`FileTree.stripFiles` does it, and what can be read can be written (`removeAll_cases`). The numbers
reported and logged are those that were removed, which need not be those that were scanned.

## Shape of the proof

* `rewriteFile` is what is done with a text once it has been read; a file without statements is not
  written, but stripping would leave it as it is (`stripFile_of_findAll_eq_nil`).
* `removeOne_cases` adds the line of the report.
* `World.Handled` and `World.Removed` are what these steps preserve, and one induction over the
  files gives `handleAll_cases`, another one `removeAll_cases`.
-/

namespace ConsoleSweep

open ConsoleSweep.Action
open Statement (stripped findAll strip_eq)

/-- Stripping a file without statements leaves the tree as it is. -/
theorem FileTree.stripFile_of_findAll_eq_nil {tree : FileTree} {path : Path} {text : String}
    (hread : tree.readText path = .ok text) (hnone : findAll text = []) :
    tree.stripFile path = .ok (tree, 0) := by
  obtain ⟨loc, hloc, hfile⟩ := readText_eq_ok_iff.mp hread
  refine stripFile_eq_ok_iff.mpr ⟨loc, text, hloc, hfile, ?_, by rw [hnone]; rfl⟩
  rw [Statement.stripped_of_findAll_eq_nil hnone, put_get? (ne_nil_of_get?_file hfile) hfile]

/-! ## One file -/

/-- What is logged when a file holds another number of statements than were scanned in it. -/
def changeRecords (r : ScanResult) (removed : Nat) : List Log.Record :=
  if removed = r.count then []
  else [⟨.warn, .remover, r.path.display ++ " changed since it was scanned: expected " ++
    toString r.count ++ " statement(s), removing " ++ toString removed ++ "."⟩]

/-- What is logged when a file has been written back. -/
def rewriteRecords (root : Path) (r : ScanResult) (removed : Nat) : List Log.Record :=
  if removed = 0 then []
  else [⟨.info, .remover,
    "Removed " ++ toString removed ++ " statement(s) from " ++ (root.join r.path).display⟩]

/-- What is logged when the statements of a file are removed. -/
def removalRecords (root : Path) (r : ScanResult) (removed : Nat) : List Log.Record :=
  changeRecords r removed ++ rewriteRecords root r removed

theorem level_rewriteRecords {root : Path} {r : ScanResult} {removed : Nat} :
    ∀ record ∈ rewriteRecords root r removed, record.level ≠ .warn := by
  rw [rewriteRecords]
  split <;> simp

/-- A removal warns exactly when the file holds another number of statements than were scanned. -/
theorem exists_warn_removalRecords_iff (root : Path) (r : ScanResult) (removed : Nat) :
    (∃ record ∈ removalRecords root r removed, record.level = .warn) ↔ removed ≠ r.count := by
  constructor
  · rintro ⟨record, hrecord, hwarn⟩ heq
    rw [removalRecords, changeRecords, if_pos heq, List.nil_append] at hrecord
    exact level_rewriteRecords record hrecord hwarn
  · intro hne
    rw [removalRecords, changeRecords, if_neg hne]
    exact ⟨_, List.mem_append_left _ (List.mem_singleton_self _), rfl⟩

/-- A tree in which a text has been stripped and written back to the file a path leads to. A text
without statements is not written. -/
def FileTree.rewrite (tree : FileTree) (path : Path) (text : String) : Except Fault FileTree :=
  if findAll text = [] then .ok tree else tree.write path (Utf8.encode (stripped text))

/-- The attempt to write a text back, which is not made if it holds no statement. -/
def attempts (path : Path) (text : String) (done : Bool) : List Access :=
  if findAll text = [] then [] else [.write path done]

/-- What is done to a file that holds a text: it is read, and there may be an attempt to write it.
-/
def visit (path : Path) (text : String) (done : Bool) : List Access :=
  .read path :: attempts path text done

/-- Writes the stripped text of a file back, unless nothing is removed. -/
def rewriteFile (root : Path) (r : ScanResult) (text : String) : Action FileFault Nat := do
  if (findAll text).length = 0 then return 0
  writeText (root.join r.path) (stripped text)
  log .info .remover
    ("Removed " ++ toString (findAll text).length ++ " statement(s) from " ++
      (root.join r.path).display)
  return (findAll text).length

section Files

variable {root : Path} {r : ScanResult} {w : World} {text : String}

/-- A file that can be read is rewritten, in the tree that somebody else may have left meanwhile,
and after a warning if it has changed. -/
theorem removeStatements_of_readText (others : Interference)
    (h : w.tree.readText (root.join r.path) = .ok text) :
    removeStatements others root r false w = rewriteFile root r text
      { w with
        tree := others.duringStrip text w.tree
        accesses := w.accesses ++ [.read (root.join r.path)]
        log := w.log ++ changeRecords r (findAll text).length } := by
  rw [removeStatements, if_neg Bool.false_ne_true, bind_of_ok (readText_of_ok h),
    bind_of_ok (outside_eq ..)]
  simp only [strip_eq, changeRecords]
  by_cases hchange : (findAll text).length = r.count
  · rw [if_neg (not_not.mpr hchange), if_pos hchange, List.append_nil]
    rfl
  · rw [if_pos hchange, if_neg hchange, bind_of_ok (log_eq ..)]
    rfl

theorem removeStatements_of_unreadable (others : Interference) {fault : Fault}
    (h : w.tree.readText (root.join r.path) = .error fault) :
    removeStatements others root r false w = .error (.unreadable (root.join r.path) fault)
      { w with accesses := w.accesses ++ [.read (root.join r.path)] } := by
  rw [removeStatements, if_neg Bool.false_ne_true, bind_of_error (readText_of_error h)]

/-- A dry run gives the number scanned and does nothing. -/
theorem removeStatements_dry (others : Interference) (root : Path) (r : ScanResult) (w : World) :
    removeStatements others root r true w = .ok r.count w := rfl

theorem rewriteFile_of_ok {tree : FileTree}
    (h : w.tree.rewrite (root.join r.path) text = .ok tree) :
    rewriteFile root r text w = .ok (findAll text).length
      { w with
        tree
        accesses := w.accesses ++ attempts (root.join r.path) text true
        log := w.log ++ rewriteRecords root r (findAll text).length } := by
  unfold FileTree.rewrite at h
  unfold rewriteFile attempts rewriteRecords
  by_cases hnone : findAll text = []
  · rw [if_pos hnone] at h
    cases h
    simp only [hnone, List.length_nil, if_true, List.append_nil]
    rfl
  · rw [if_neg hnone] at h
    have hsome : (findAll text).length ≠ 0 := mt List.eq_nil_of_length_eq_zero hnone
    rw [if_neg hsome, if_neg hsome, if_neg hnone, bind_of_ok (writeText_of_ok h),
      bind_of_ok (log_eq ..)]
    rfl

theorem rewriteFile_of_error {fault : Fault}
    (h : w.tree.rewrite (root.join r.path) text = .error fault) :
    rewriteFile root r text w = .error (.unwritable (root.join r.path) fault)
      { w with accesses := w.accesses ++ attempts (root.join r.path) text false } := by
  unfold FileTree.rewrite at h
  unfold rewriteFile attempts
  by_cases hnone : findAll text = []
  · rw [if_pos hnone] at h
    cases h
  · rw [if_neg hnone] at h
    have hsome : (findAll text).length ≠ 0 := mt List.eq_nil_of_length_eq_zero hnone
    rw [if_neg hsome, if_neg hnone, bind_of_error (writeText_of_error h)]

/-- A file that can be read and rewritten is. -/
theorem removeStatements_of_ok (others : Interference) {tree : FileTree}
    (hread : w.tree.readText (root.join r.path) = .ok text)
    (hwrite : (others.duringStrip text w.tree).rewrite (root.join r.path) text = .ok tree) :
    removeStatements others root r false w = .ok (findAll text).length
      { w with
        tree
        accesses := w.accesses ++ visit (root.join r.path) text true
        log := w.log ++ removalRecords root r (findAll text).length } := by
  rw [removeStatements_of_readText others hread, rewriteFile_of_ok hwrite]
  simp only [visit, removalRecords, List.append_assoc, List.singleton_append]

/-- A file that can be read but not rewritten is left alone. -/
theorem removeStatements_of_unwritable (others : Interference) {fault : Fault}
    (hread : w.tree.readText (root.join r.path) = .ok text)
    (hwrite : (others.duringStrip text w.tree).rewrite (root.join r.path) text = .error fault) :
    removeStatements others root r false w = .error (.unwritable (root.join r.path) fault)
      { w with
        tree := others.duringStrip text w.tree
        accesses := w.accesses ++ visit (root.join r.path) text false
        log := w.log ++ changeRecords r (findAll text).length } := by
  rw [removeStatements_of_readText others hread, rewriteFile_of_error hwrite]
  simp only [visit, List.append_assoc, List.singleton_append]

/-- What has been read can be rewritten, and rewriting it strips it. -/
theorem FileTree.rewrite_of_readText {tree : FileTree} {path : Path}
    (h : tree.readText path = .ok text) :
    ∃ next, tree.rewrite path text = .ok next ∧
      tree.stripFile path = .ok (next, (findAll text).length) := by
  unfold rewrite
  by_cases hnone : findAll text = []
  · rw [if_pos hnone, hnone]
    exact ⟨tree, rfl, stripFile_of_findAll_eq_nil h hnone⟩
  · obtain ⟨loc, hloc, hfile⟩ := readText_eq_ok_iff.mp h
    rw [if_neg hnone]
    exact ⟨_, write_of_file hloc hfile, stripFile_eq_ok_iff.mpr ⟨loc, text, hloc, hfile, rfl, rfl⟩⟩

end Files

namespace World

/-- From one world to another, the file of a scan result was read and found to hold a text, the text
was stripped and written back, and the number removed was logged and reported. -/
structure Handled (s : Setup) (r : ScanResult) (text : String) (w w' : World) : Prop where
  read : w.tree.readText (s.options.root.join r.path) = .ok text
  tree : (s.others.duringStrip text w.tree).rewrite (s.options.root.join r.path) text = .ok w'.tree
  accesses : w'.accesses = w.accesses ++ visit (s.options.root.join r.path) text true
  written : w'.sink.written =
    w.sink.written ++ Utf8.encode (Report.removed s.palette r.path (findAll text).length)
  room : w'.sink.room = none ↔ w.sink.room = none
  asked : w'.asked = w.asked
  log : w'.log = w.log ++ removalRecords s.options.root r (findAll text).length

/-- From one world to another, files were handled one after the other. -/
inductive HandledAll (s : Setup) : List ScanResult → List String → World → World → Prop where
  | nil (w : World) : HandledAll s [] [] w w
  | cons {r : ScanResult} {text : String} {results : List ScanResult} {texts : List String}
      {w w' w'' : World} (h : w.Handled s r text w') (h' : HandledAll s results texts w' w'') :
      HandledAll s (r :: results) (text :: texts) w w''

/-- How the file of a scan result can stop the removal, with the failure and the world it ends in.
-/
inductive Blocked (s : Setup) (r : ScanResult) (w : World) : Failure → World → Prop where
  /-- The file cannot be read. Nothing is written to it. -/
  | unreadable {fault : Fault}
      (hread : w.tree.readText (s.options.root.join r.path) = .error fault) :
      Blocked s r w (.removing r.path (.unreadable (s.options.root.join r.path) fault))
        { w with accesses := w.accesses ++ [.read (s.options.root.join r.path)] }
  /-- The file has been read and holds statements, but it cannot be written. -/
  | unwritable {text : String} {fault : Fault}
      (hread : w.tree.readText (s.options.root.join r.path) = .ok text)
      (hwrite : (s.others.duringStrip text w.tree).rewrite (s.options.root.join r.path) text =
        .error fault) :
      Blocked s r w (.removing r.path (.unwritable (s.options.root.join r.path) fault))
        { w with
          tree := s.others.duringStrip text w.tree
          accesses := w.accesses ++ visit (s.options.root.join r.path) text false
          log := w.log ++ changeRecords r (findAll text).length }
  /-- The file has been dealt with, but the line about it does not fit into the sink. -/
  | unreported {text : String} {v w' : World}
      (hread : w.tree.readText (s.options.root.join r.path) = .ok text)
      (hwrite : (s.others.duringStrip text w.tree).rewrite (s.options.root.join r.path) text =
        .ok v.tree)
      (haccesses : v.accesses = w.accesses ++ visit (s.options.root.join r.path) text true)
      (hasked : v.asked = w.asked) (hsink : v.sink = w.sink)
      (hcut : v.CutShort (Report.removed s.palette r.path (findAll text).length) w') :
      Blocked s r w .sinkFull w'

/-- From one world to another, files that have been scanned were stripped, one after the other, and
for each of them the number removed was logged and reported. -/
structure Removed (s : Setup) (results : List ScanResult) (counts : List Nat) (w w' : World) :
    Prop where
  tree : w.tree.stripFiles (results.map fun r => s.options.root.join r.path) =
    .ok (w'.tree, counts)
  written : w'.sink.written = w.sink.written ++ Utf8.encode
    (String.join (List.zipWith (fun r n => Report.removed s.palette r.path n) results counts))
  room : w'.sink.room = none ↔ w.sink.room = none
  asked : w'.asked = w.asked
  log : w'.log =
    w.log ++ (List.zipWith (removalRecords s.options.root) results counts).flatten

variable {s : Setup} {r : ScanResult} {results : List ScanResult} {text : String}
  {texts : List String} {counts : List Nat} {e : Failure} {w w' w'' : World}

/-! ## Files handled one after the other -/

namespace HandledAll

theorem length_eq (h : w.HandledAll s results texts w') : texts.length = results.length := by
  induction h with
  | nil => rfl
  | cons _ _ ih => rw [List.length_cons, List.length_cons, ih]

/-- Each file was read once, and there was one attempt to write it if it held statements. -/
theorem accesses (h : w.HandledAll s results texts w') :
    w'.accesses = w.accesses ++ (List.zipWith
      (fun r text => visit (s.options.root.join r.path) text true) results texts).flatten := by
  induction h with
  | nil => simp
  | cons hfirst _ ih =>
    rw [ih, hfirst.accesses, List.zipWith_cons_cons, List.flatten_cons, List.append_assoc]

/-- The lines about the files are complete, with the numbers that were removed. -/
theorem written (h : w.HandledAll s results texts w') :
    w'.sink.written = w.sink.written ++ Utf8.encode (String.join (List.zipWith
      (fun r text => Report.removed s.palette r.path (findAll text).length) results texts)) := by
  induction h with
  | nil => simp [Utf8.encode]
  | cons hfirst _ ih =>
    rw [ih, hfirst.written, List.zipWith_cons_cons, String.join_cons, Utf8.encode_append,
      List.append_assoc]

theorem asked (h : w.HandledAll s results texts w') : w'.asked = w.asked := by
  induction h with
  | nil => rfl
  | cons hfirst _ ih => rw [ih, hfirst.asked]

theorem room (h : w.HandledAll s results texts w') :
    w'.sink.room = none ↔ w.sink.room = none := by
  induction h with
  | nil => rfl
  | cons hfirst _ ih => rw [ih, hfirst.room]

end HandledAll

/-- The file that stops a removal was read at least, and there was one attempt to write it at most.
-/
theorem Blocked.accesses (h : w.Blocked s r e w') :
    w'.accesses = w.accesses ++ [.read (s.options.root.join r.path)] ∨
      ∃ text done, w'.accesses = w.accesses ++ visit (s.options.root.join r.path) text done := by
  cases h with
  | unreadable => exact .inl rfl
  | @unwritable text _ _ _ => exact .inr ⟨text, false, rfl⟩
  | @unreported text _ _ _ _ haccesses _ _ hcut =>
    refine .inr ⟨text, true, ?_⟩
    rw [hcut.others]
    exact haccesses

/-- The line about the file that stops a removal is missing or cut short. -/
theorem Blocked.written (h : w.Blocked s r e w') :
    w'.sink.written = w.sink.written ∨
      ∃ n, ∃ k < (Utf8.encode (Report.removed s.palette r.path n)).length, w'.sink.written =
        w.sink.written ++ (Utf8.encode (Report.removed s.palette r.path n)).take k := by
  cases h with
  | unreadable => exact .inl rfl
  | unwritable => exact .inl rfl
  | unreported _ _ _ _ hsink hcut =>
    obtain ⟨k, hk, hwritten⟩ := hcut.written
    rw [hsink] at hwritten
    exact .inr ⟨_, k, hk, hwritten⟩

theorem Blocked.asked (h : w.Blocked s r e w') : w'.asked = w.asked := by
  cases h with
  | unreadable => rfl
  | unwritable => rfl
  | unreported _ _ _ hasked _ hcut => rw [hcut.others, ← hasked]

/-! ## Nobody else changes the tree -/

/-- Handling a file strips it, as long as nobody else changes the tree. -/
theorem Handled.stripFile (halone : s.others.duringStrip = Interference.none.duringStrip)
    (h : w.Handled s r text w') :
    w.tree.stripFile (s.options.root.join r.path) = .ok (w'.tree, (findAll text).length) := by
  obtain ⟨next, hrewrite, hstrip⟩ := FileTree.rewrite_of_readText h.read
  have htree := h.tree
  rw [halone] at htree
  have hnext : Except.ok next = .ok w'.tree := hrewrite.symm.trans htree
  cases hnext
  exact hstrip

/-- Handling files strips them, as long as nobody else changes the tree. -/
theorem HandledAll.removed (halone : s.others.duringStrip = Interference.none.duringStrip)
    (h : w.HandledAll s results texts w') :
    w.Removed s results (texts.map fun text => (findAll text).length) w' := by
  induction h with
  | nil w =>
    exact ⟨rfl, by simp [Utf8.encode], Iff.rfl, rfl, by simp⟩
  | cons hfirst _ ih =>
    rw [List.map_cons]
    exact {
      tree := FileTree.stripFiles_cons_eq_ok_iff.mpr
        ⟨_, _, _, hfirst.stripFile halone, ih.tree, rfl⟩
      written := by
        rw [ih.written, hfirst.written, List.append_assoc, ← Utf8.encode_append,
          List.zipWith_cons_cons, String.join_cons]
      room := ih.room.trans hfirst.room
      asked := ih.asked.trans hfirst.asked
      log := by
        rw [ih.log, hfirst.log, List.append_assoc, List.zipWith_cons_cons, List.flatten_cons] }

/-- As long as nobody else changes the tree, a file stops the removal only because it cannot be read
or because the sink is limited. -/
theorem Blocked.cause (halone : s.others.duringStrip = Interference.none.duringStrip)
    (h : w.Blocked s r e w') :
    w.sink.room ≠ none ∨ ∃ fault, w.tree.readText (s.options.root.join r.path) = .error fault ∧
      e = .removing r.path (.unreadable (s.options.root.join r.path) fault) ∧
      w' = { w with accesses := w.accesses ++ [.read (s.options.root.join r.path)] } := by
  cases h with
  | unreadable hread => exact .inr ⟨_, hread, rfl, rfl⟩
  | unwritable hread hwrite =>
    -- what has been read can be written, as nobody else has touched the file since
    obtain ⟨next, hrewrite, -⟩ := FileTree.rewrite_of_readText hread
    rw [halone] at hwrite
    cases hrewrite.symm.trans hwrite
  | unreported _ _ _ _ hsink hcut =>
    refine .inl ?_
    rw [← hsink]
    exact hcut.room

end World

namespace Setup

variable {s : Setup}

/-! ## The removal as a whole -/

/-- A file is handled, or it stops the removal. -/
theorem removeOne_cases (hreal : s.options.dryRun = false) (r : ScanResult) (w : World) :
    (∃ text w', s.removeOne r w = .ok (findAll text).length w' ∧ w.Handled s r text w') ∨
      ∃ e w', s.removeOne r w = .error e w' ∧ w.Blocked s r e w' := by
  rw [removeOne, hreal]
  cases hread : w.tree.readText (s.options.root.join r.path) with
  | error fault =>
    have hfails := removeStatements_of_unreadable s.others hread
    exact .inr ⟨_, _, bind_of_error (within_of_error hfails), .unreadable hread⟩
  | ok text =>
    cases hwrite : (s.others.duringStrip text w.tree).rewrite (s.options.root.join r.path) text with
    | error fault =>
      have hfails := removeStatements_of_unwritable s.others hread hwrite
      exact .inr ⟨_, _, bind_of_error (within_of_error hfails), .unwritable hread hwrite⟩
    | ok tree =>
      have hremoves := removeStatements_of_ok s.others hread hwrite
      rw [bind_of_ok (within_of_ok hremoves), if_neg Bool.false_ne_true]
      -- the file has been rewritten; whether the line fits into the sink is decided after
      rcases report_cases (Report.removed s.palette r.path (findAll text).length) _ with
        ⟨u, hreport, hreported⟩ | ⟨u, hreport, hcut⟩
      · refine .inl ⟨text, u, bind_of_ok hreport, ?_⟩
        exact {
          read := hread
          tree := by rw [hreported.others]; exact hwrite
          accesses := by rw [hreported.others]
          written := hreported.written
          room := hreported.room
          asked := by rw [hreported.others]
          log := by rw [hreported.others] }
      · refine .inr ⟨_, u, bind_of_error hreport, ?_⟩
        refine .unreported hread ?_ ?_ ?_ ?_ hcut
        · exact hwrite
        · rfl
        · rfl
        · rfl

/-- **Where the removal stops.** All files are handled, one after the other, or one of them stops
the removal: then those before it have been handled, and nothing has been done to those after it. -/
theorem handleAll_cases (hreal : s.options.dryRun = false) (results : List ScanResult)
    (w : World) :
    (∃ texts w', s.removeAll results w = .ok (texts.map fun text => (findAll text).length).sum w' ∧
        w.HandledAll s results texts w') ∨
      ∃ i r texts u e w', results[i]? = some r ∧ w.HandledAll s (results.take i) texts u ∧
        s.removeOne r u = .error e w' ∧ u.Blocked s r e w' ∧
        s.removeAll results w = .error e w' := by
  induction results generalizing w with
  | nil => exact .inl ⟨[], w, rfl, .nil w⟩
  | cons r rest ih =>
    rw [removeAll]
    rcases removeOne_cases hreal r w with ⟨text, v, hfirst, hhandled⟩ | ⟨e, v, hfirst, hblocked⟩
    · rw [bind_of_ok hfirst]
      rcases ih v with ⟨texts, u, hrest, hall⟩ |
        ⟨i, other, texts, u, e, w', hother, hall, hone, hblocked, hrest⟩
      · exact .inl ⟨text :: texts, u, bind_of_ok hrest, .cons hhandled hall⟩
      · refine .inr ⟨i + 1, other, text :: texts, u, e, w', ?_, ?_, hone, hblocked,
          bind_of_error hrest⟩
        · rw [List.getElem?_cons_succ]
          exact hother
        · rw [List.take_succ_cons]
          exact .cons hhandled hall
    · exact .inr ⟨0, r, [], w, e, v, rfl, .nil w, hfirst, hblocked, bind_of_error hfirst⟩

/-- The removal depends on the options, the palette, and on what others do meanwhile. -/
theorem removeAll_congr {t : Setup} (hoptions : t.options = s.options)
    (hpalette : t.palette = s.palette) (hstrip : t.others.duringStrip = s.others.duringStrip)
    (results : List ScanResult) : t.removeAll results = s.removeAll results := by
  induction results with
  | nil => rfl
  | cons r rest ih =>
    have hone : t.removeOne r = s.removeOne r := by
      simp only [removeOne, removeStatements, hoptions, hpalette, hstrip]
    rw [removeAll, removeAll, ih, hone]

/-- The removal puts no question. -/
theorem asked_removeAll (hreal : s.options.dryRun = false) (results : List ScanResult)
    (w : World) : (ending (s.removeAll results w)).asked = w.asked := by
  rcases handleAll_cases hreal results w with
    ⟨texts, v, hremoves, hall⟩ | ⟨i, r, texts, u, e, v, -, hall, -, hblocked, hfails⟩
  · rw [hremoves]
    exact hall.asked
  · rw [hfails]
    exact hblocked.asked.trans hall.asked

/-- **The removal strips the files one after the other**, as long as nobody else changes the tree.
It ends early only if the sink is full or a file cannot be read. -/
theorem removeAll_cases (hothers : s.others = .none) (hreal : s.options.dryRun = false)
    (results : List ScanResult) (w : World) :
    (∃ counts w', s.removeAll results w = .ok counts.sum w' ∧ w.Removed s results counts w') ∨
      ∃ e w', s.removeAll results w = .error e w' ∧ w'.asked = w.asked ∧
        (w.sink.room ≠ none ∨ ∃ r ∈ results, ¬ w.tree.Readable (s.options.root.join r.path)) := by
  have halone : s.others.duringStrip = Interference.none.duringStrip := by rw [hothers]
  rcases handleAll_cases hreal results w with
    ⟨texts, v, hremoves, hall⟩ | ⟨i, r, texts, u, e, v, hr, hall, -, hblocked, hfails⟩
  · exact .inl ⟨_, v, hremoves, hall.removed halone⟩
  · refine .inr ⟨e, v, hfails, hblocked.asked.trans hall.asked, ?_⟩
    rcases hblocked.cause halone with hroom | ⟨fault, hbad, -, -⟩
    · exact .inl (mt hall.room.mpr hroom)
    · -- stripping the files before it has made no file unreadable
      refine .inr ⟨r, List.mem_of_getElem? hr, fun hread => ?_⟩
      obtain ⟨text, htext⟩ :=
        FileTree.exists_readText_stripFiles (hall.removed halone).tree hread
      cases hbad.symm.trans htext

/-- A dry run gives the number scanned and does nothing. -/
theorem removeAll_dry (hdry : s.options.dryRun = true) (results : List ScanResult) (w : World) :
    s.removeAll results w = .ok (results.map (·.count)).sum w := by
  induction results with
  | nil => rfl
  | cons r rest ih =>
    have hfirst : s.removeOne r w = .ok r.count w := by
      rw [removeOne, hdry, bind_of_ok (within_of_ok (removeStatements_dry ..)), if_pos rfl]
      rfl
    rw [removeAll, bind_of_ok hfirst, bind_of_ok ih]
    rfl

end Setup

end ConsoleSweep
