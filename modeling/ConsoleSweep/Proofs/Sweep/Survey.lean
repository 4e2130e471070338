import ConsoleSweep.Proofs.Sweep.Action
import ConsoleSweep.Sweep.Run

/-!
# The part of a run that only looks

A run first collects its files and scans them all. As long as nobody else changes the tree
meanwhile, this is `World.Quiet`, and what it finds is a function of the tree alone: `found` is the
list of the files that hold statements, with the statements. It is stopped by the first file that
cannot be read as text, wherever that stands in the order.
-/

namespace ConsoleSweep

open ConsoleSweep.Action

/-- A path that can be read as text. -/
def FileTree.Readable (tree : FileTree) (path : Path) : Prop :=
  ∃ text, tree.readText path = .ok text

section Files

variable {root file : Path} {w : World}

theorem scanFile_of_ok {others : Interference}
    (hfind : others.duringFind = Interference.none.duringFind) {text : String}
    (h : w.tree.readText (root.join file) = .ok text) :
    ∃ w', scanFile others root file w = .ok (ScanResult.ofText file text) w' ∧ w.Quiet w' := by
  refine ⟨_, ?_, (w.quiet_read (root.join file)).trans (World.quiet_log _ .debug .scanner
    ("Scanner found " ++ toString (ScanResult.ofText file text).count ++
      " console statement(s).") nofun)⟩
  rw [scanFile, hfind, bind_of_ok (readText_of_ok h), bind_of_ok (outside_eq _ _),
    bind_of_ok (log_eq ..)]
  rfl

theorem scanFile_of_error (others : Interference) {fault : Fault}
    (h : w.tree.readText (root.join file) = .error fault) :
    ∃ w', scanFile others root file w = .error (.unreadable (root.join file) fault) w' ∧
      w.Quiet w' := by
  refine ⟨_, ?_, w.quiet_read (root.join file)⟩
  rw [scanFile, bind_of_error (readText_of_error h)]

end Files

namespace Setup

variable {s : Setup}

/-- The statements of one file. -/
def scanned (s : Setup) (tree : FileTree) (file : Path) : ScanResult :=
  .ofText file (tree.textOf (s.options.root.join file))

/-- The files that hold statements, with their statements. -/
def found (s : Setup) (tree : FileTree) (files : List Path) : List ScanResult :=
  (files.map (s.scanned tree)).filter (·.hasMatches)

theorem found_cons (s : Setup) (tree : FileTree) (file : Path) (files : List Path) :
    s.found tree (file :: files) =
      if (s.scanned tree file).hasMatches then s.scanned tree file :: s.found tree files
      else s.found tree files := by
  rw [found, List.map_cons, List.filter_cons]
  rfl

theorem exists_of_mem_found {tree : FileTree} {files : List Path} {r : ScanResult}
    (hr : r ∈ s.found tree files) : ∃ file ∈ files, s.scanned tree file = r := by
  rw [found, List.mem_filter, List.mem_map] at hr
  exact hr.1

/-- Once the first file has been scanned, its statements are kept, if there are any, and the other
files follow. -/
theorem scanAll_cons_of_ok (hfind : s.others.duringFind = Interference.none.duringFind)
    {file : Path} {w : World} {text : String}
    (hread : w.tree.readText (s.options.root.join file) = .ok text) (rest : List Path) :
    ∃ w', w.Quiet w' ∧ s.scanAll (file :: rest) w =
      (if (s.scanned w.tree file).hasMatches then
        (do return s.scanned w.tree file :: (← s.scanAll rest))
      else s.scanAll rest) w' := by
  obtain ⟨v, hscan, hquiet⟩ := scanFile_of_ok hfind hread
  have hresult : ScanResult.ofText file text = s.scanned w.tree file := by
    rw [scanned, FileTree.textOf_of_readText hread]
  rw [hresult] at hscan
  rw [scanAll, bind_of_ok (within_of_ok hscan)]
  by_cases hmatch : (s.scanned w.tree file).hasMatches
  · refine ⟨_, hquiet.trans (v.quiet_log .debug .run
      (file.display ++ ": " ++ toString (s.scanned w.tree file).count ++ " match(es)") nofun), ?_⟩
    rw [if_pos hmatch, if_pos hmatch, bind_of_ok (log_eq ..)]
  · refine ⟨v, hquiet, ?_⟩
    rw [if_neg hmatch, if_neg hmatch]

/-- A scan finds what there is, or is stopped by a file that cannot be read. -/
theorem scanAll_cases (hfind : s.others.duringFind = Interference.none.duringFind)
    (files : List Path) (w : World) :
    (∃ w', s.scanAll files w = .ok (s.found w.tree files) w' ∧ w.Quiet w' ∧
        ∀ file ∈ files, w.tree.Readable (s.options.root.join file)) ∨
      ∃ w', ∃ file ∈ files, ∃ fault, w.tree.readText (s.options.root.join file) = .error fault ∧
        s.scanAll files w =
          .error (.scanning file (.unreadable (s.options.root.join file) fault)) w' ∧
        w.Quiet w' := by
  induction files generalizing w with
  | nil => exact .inl ⟨w, rfl, .refl w, by simp⟩
  | cons file rest ih =>
    cases hread : w.tree.readText (s.options.root.join file) with
    | error fault =>
      obtain ⟨v, hscan, hquiet⟩ := scanFile_of_error s.others hread
      refine .inr ⟨v, file, List.mem_cons_self, fault, hread, ?_, hquiet⟩
      rw [scanAll, bind_of_error (within_of_error hscan)]
    | ok text =>
      obtain ⟨v, hquiet, hscan⟩ := scanAll_cons_of_ok hfind hread rest
      -- the other files are scanned in a world with the same tree
      have hrest := ih v
      rw [hquiet.tree] at hrest
      rw [hscan, found_cons]
      rcases hrest with ⟨u, hscans, hquiet', hreadable⟩ |
        ⟨u, other, hother, fault, hbad, hscans, hquiet'⟩
      · refine .inl ⟨u, ?_, hquiet.trans hquiet',
          List.forall_mem_cons.mpr ⟨⟨text, hread⟩, hreadable⟩⟩
        split
        · rw [bind_of_ok hscans]
          rfl
        · exact hscans
      · refine .inr ⟨u, other, List.mem_cons_of_mem _ hother, fault, hbad, ?_,
          hquiet.trans hquiet'⟩
        split
        · rw [bind_of_error hscans]
        · exact hscans

/-- The scan depends on the options, and on what others do meanwhile. -/
theorem scanAll_congr {t : Setup} (hoptions : t.options = s.options)
    (hfind : t.others.duringFind = s.others.duringFind) (files : List Path) :
    t.scanAll files = s.scanAll files := by
  induction files with
  | nil => rfl
  | cons file rest ih =>
    have hfile : scanFile t.others t.options.root file = scanFile s.others s.options.root file := by
      rw [scanFile, hoptions, hfind]
      rfl
    rw [scanAll, scanAll, ih, hfile]

theorem level_records (o : Options) (c : Collection) : ∀ r ∈ c.records o, r.level ≠ .warn := by
  intro r hr
  rw [Collection.records, List.mem_append, List.mem_map] at hr
  rcases hr with ⟨file, -, rfl⟩ | hr
  · simp
  · split at hr
    · cases hr
    · rw [List.mem_singleton.mp hr]
      simp

/-- Collecting logs what it collects, and gives the files of the run or what stopped it. -/
theorem collectFiles_cases (s : Setup) (w : World) :
    (∃ files w', collect s.options w.tree = .ok files ∧ s.collectFiles w = .ok files w' ∧
        w.Quiet w') ∨
      ∃ fault w', collect s.options w.tree = .error fault ∧
        s.collectFiles w = .error (.collecting s.options.root fault) w' ∧ w.Quiet w' := by
  have hquiet := w.quiet_logAll (level_records s.options (Collection.run s.options w.tree))
  rw [collectFiles, bind_of_ok (get_eq w), bind_of_ok (logAll_eq ..), collect]
  cases hstopped : (Collection.run s.options w.tree).stopped with
  | none => exact .inl ⟨_, _, rfl, rfl, hquiet⟩
  | some fault => exact .inr ⟨_, _, rfl, rfl, hquiet⟩

end Setup

end ConsoleSweep
