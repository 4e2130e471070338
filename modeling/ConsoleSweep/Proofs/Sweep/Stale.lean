import ConsoleSweep.FileTree.Edit
import ConsoleSweep.Proofs.Sweep.Removal

/-!
# Removing what a file holds, whatever was scanned in it

A file is read again before its statements are removed, so what is removed does not depend on the
scan result: that one only names the file, and gives the number of statements to compare with. So a
scan result may be stale, or may never have been true of the file. `removeStatements_outcome` says
for every tree and every scan result how the removal ends and what it leaves: there is the dry run,
the file that cannot be read, the file that holds no statement, and the file that is rewritten.

The rewritten file is the one that the path leads to. Links on the way are entries like all others
and stay as they are, as nothing changes but the bytes of that file (`FileTree.Rewritten`).
-/

namespace ConsoleSweep

open ConsoleSweep.Action
open Statement (stripped findAll)

namespace FileTree

/-- A path leads, through any links, to the regular file at a location, which holds a text in UTF-8.
-/
structure Holds (tree : FileTree) (path : Path) (loc : Location) (text : String) : Prop where
  leads : tree.resolve? path = .ok loc
  holds : ∃ data, tree.get? loc = some (.file data) ∧ Utf8.decode? data = some text

/-- From one tree to another, the file at a location was given other bytes. No entry was added,
removed or changed in kind, no link points elsewhere, and every other location holds what it held.
-/
structure Rewritten (before : FileTree) (loc : Location) (data : Bytes) (after : FileTree) :
    Prop where
  content : after.get? loc = some (.file data)
  others : ∀ other, other ≠ loc → after.get? other = before.get? other
  shape : before.SameShape after

variable {tree next : FileTree} {path : Path} {loc : Location} {text : String} {removed : Nat}

theorem holds_iff : tree.Holds path loc text ↔
    tree.resolve? path = .ok loc ∧ tree.get? loc = some (.file (Utf8.encode text)) := by
  constructor
  · rintro ⟨hloc, data, hfile, htext⟩
    rw [Utf8.decode?_eq_some_iff.mp htext] at hfile
    exact ⟨hloc, hfile⟩
  · rintro ⟨hloc, hfile⟩
    exact ⟨hloc, _, hfile, Utf8.decode?_eq_some_iff.mpr rfl⟩

/-- A path can be read as text exactly when it leads to a file that holds the text. -/
theorem readText_eq_ok_iff_holds :
    tree.readText path = .ok text ↔ ∃ loc, tree.Holds path loc text := by
  simp only [readText_eq_ok_iff, holds_iff]

/-- Reading fails exactly when the path leads to no file with a text. -/
theorem exists_readText_eq_error_iff :
    (∃ fault, tree.readText path = .error fault) ↔ ¬ ∃ loc text, tree.Holds path loc text := by
  cases hread : tree.readText path with
  | error fault =>
    refine iff_of_true ⟨fault, rfl⟩ ?_
    rintro ⟨loc, text, hholds⟩
    cases hread.symm.trans (readText_eq_ok_iff_holds.mpr ⟨loc, hholds⟩)
  | ok text =>
    obtain ⟨loc, hholds⟩ := readText_eq_ok_iff_holds.mp hread
    exact iff_of_false nofun (not_not.mpr ⟨loc, text, hholds⟩)

/-- Stripping a file gives it other bytes. -/
theorem Holds.rewritten (h : tree.Holds path loc text)
    (hstrip : tree.stripFile path = .ok (next, removed)) :
    tree.Rewritten loc (Utf8.encode (stripped text)) next := by
  obtain ⟨hloc, hfile⟩ := holds_iff.mp h
  obtain ⟨loc', text', hloc', hfile', hnext, -⟩ := stripFile_eq_ok_iff.mp hstrip
  cases hloc.symm.trans hloc'
  cases Utf8.encode_injective (Node.file.inj (Option.some.inj (hfile.symm.trans hfile')))
  refine ⟨?_, fun other hne => ?_, sameShape_stripFile hstrip⟩
  · rw [hnext, get?_put_self (ne_nil_of_get?_file hfile)]
  · rw [hnext, get?_put_of_ne hne]

end FileTree

variable {root : Path} {r r' : ScanResult} {w : World} {loc : Location} {text : String}

/-- The statements of a file that holds a text are removed, and their number is given. -/
theorem removeStatements_of_holds (h : w.tree.Holds (root.join r.path) loc text) :
    ∃ tree, w.tree.rewrite (root.join r.path) text = .ok tree ∧
      w.tree.Rewritten loc (Utf8.encode (stripped text)) tree ∧
      removeStatements .none root r false w = .ok (findAll text).length
        { w with
          tree
          accesses := w.accesses ++ visit (root.join r.path) text true
          log := w.log ++ removalRecords root r (findAll text).length } := by
  have hread := FileTree.readText_eq_ok_iff_holds.mpr ⟨loc, h⟩
  obtain ⟨tree, hrewrite, hstrip⟩ := FileTree.rewrite_of_readText hread
  exact ⟨tree, hrewrite, h.rewritten hstrip, removeStatements_of_ok .none hread hrewrite⟩

/-- Two scan results about one path lead to the same removal, but for the log. -/
theorem removeStatements_congr (hpath : r'.path = r.path) :
    upshot (removeStatements .none root r' false w) =
        upshot (removeStatements .none root r false w) ∧
      { ending (removeStatements .none root r' false w) with log := [] } =
        { ending (removeStatements .none root r false w) with log := [] } := by
  cases hread : w.tree.readText (root.join r.path) with
  | error fault =>
    have hread' : w.tree.readText (root.join r'.path) = .error fault := by rw [hpath, hread]
    rw [removeStatements_of_unreadable .none hread, removeStatements_of_unreadable .none hread',
      hpath]
    exact ⟨rfl, rfl⟩
  | ok text =>
    have hread' : w.tree.readText (root.join r'.path) = .ok text := by rw [hpath, hread]
    obtain ⟨tree, hrewrite, -⟩ := FileTree.rewrite_of_readText hread
    have hrewrite' : w.tree.rewrite (root.join r'.path) text = .ok tree := by rw [hpath, hrewrite]
    rw [removeStatements_of_ok .none hread hrewrite, removeStatements_of_ok .none hread' hrewrite',
      hpath]
    exact ⟨rfl, rfl⟩

/-- **How the removal from one file ends**, for every tree and whatever was scanned.

* A dry run gives the number scanned and does nothing, be there a file or not.
* If the joined path leads to no regular file with a text, the removal fails with that path, and
  nothing but the attempt to read it has been done.
* If the text holds no statement, none is removed and nothing is written.
* Otherwise the number of statements in the text is given, and the file the path leads to holds the
  text without them. Nothing else in the tree is changed.

Another scan result about the same path leads to the same end in the same world, but for the log:
there is a warning in it if the number scanned is not the number removed (`changeRecords`). -/
theorem removeStatements_outcome (root : Path) (r : ScanResult) (w : World) :
    let path := root.join r.path
    let removal := removeStatements .none root r false w
    removeStatements .none root r true w = .ok r.count w ∧
      ((¬ ∃ loc text, w.tree.Holds path loc text) → ∃ fault, removal =
        .error (.unreadable path fault) { w with accesses := w.accesses ++ [.read path] }) ∧
      (∀ loc text, w.tree.Holds path loc text → findAll text = [] → removal =
        .ok 0 { w with
          accesses := w.accesses ++ [.read path]
          log := w.log ++ changeRecords r 0 }) ∧
      (∀ loc text, w.tree.Holds path loc text → findAll text ≠ [] → ∃ tree,
        w.tree.Rewritten loc (Utf8.encode (Statement.strip text).1) tree ∧ removal =
          .ok (findAll text).length { w with
            tree
            accesses := w.accesses ++ [.read path, .write path true]
            log := w.log ++ (changeRecords r (findAll text).length ++
              rewriteRecords root r (findAll text).length) }) ∧
      ∀ r' : ScanResult, r'.path = r.path →
        upshot (removeStatements .none root r' false w) = upshot removal ∧
          { ending (removeStatements .none root r' false w) with log := [] } =
            { ending removal with log := [] } := by
  intro path removal
  refine ⟨removeStatements_dry .none root r w, ?unreadable, ?untouched, ?rewritten,
    fun r' hpath => removeStatements_congr hpath⟩
  case unreadable =>
    intro hnone
    obtain ⟨fault, hread⟩ := FileTree.exists_readText_eq_error_iff.mpr hnone
    exact ⟨fault, removeStatements_of_unreadable .none hread⟩
  case untouched =>
    intro loc text hholds hnone
    obtain ⟨tree, hrewrite, -, hremoves⟩ := removeStatements_of_holds hholds
    rw [FileTree.rewrite, if_pos hnone] at hrewrite
    cases hrewrite
    rw [visit, attempts, if_pos hnone, removalRecords, hnone, List.length_nil, rewriteRecords,
      if_pos rfl, List.append_nil] at hremoves
    exact hremoves
  case rewritten =>
    intro loc text hholds hsome
    obtain ⟨tree, -, hrewritten, hremoves⟩ := removeStatements_of_holds hholds
    rw [visit, attempts, if_neg hsome] at hremoves
    rw [Statement.strip_eq]
    exact ⟨tree, hrewritten, hremoves⟩

/-- A file with two statements, with one link to it and another to that link, and a file without
statements. -/
def chainedTree : FileTree := FileTree.empty.attemptAll
  [.file (.ofString "lib/a.js") (Utf8.encode "x;console.log(1);console.log(2);"),
    .link (.ofString "b.js") (Utf8.encode "lib/a.js"),
    .link (.ofString "c.js") (Utf8.encode "b.js"),
    .file (.ofString "d.js") (Utf8.encode "y;")]

/-- Three statements were scanned in a file, which holds two by now and is reached through two
links; no file of another name is there, and the third holds no statement. -/
theorem removeStatements_outcome_chained :
    let w : World := .start chainedTree none []
    let removal := removeStatements .none (.ofString ".")
    (∃ tree, w.tree.Rewritten [Utf8.encode "lib", Utf8.encode "a.js"] (Utf8.encode "x;") tree ∧
      upshot (removal ⟨.ofString "c.js", ["1", "2", "3"]⟩ false w) = .ok 2 ∧
      (ending (removal ⟨.ofString "c.js", ["1", "2", "3"]⟩ false w)).tree = tree) ∧
    (∃ fault, upshot (removal ⟨.ofString "e.js", ["1"]⟩ false w) =
      .error (.unreadable (.ofString "./e.js") fault)) ∧
    upshot (removal ⟨.ofString "d.js", ["1"]⟩ false w) = .ok 0 ∧
    upshot (removal ⟨.ofString "e.js", ["1"]⟩ true w) = .ok 1 ∧
    upshot (removal ⟨.ofString "c.js", []⟩ false w) =
      upshot (removal ⟨.ofString "c.js", ["1", "2", "3"]⟩ false w) := by
  intro w removal
  have hchained : w.tree.Holds ((Path.ofString ".").join (.ofString "c.js"))
      [Utf8.encode "lib", Utf8.encode "a.js"] "x;console.log(1);console.log(2);" :=
    FileTree.holds_iff.mpr (by decide +kernel)
  have hclean : w.tree.Holds ((Path.ofString ".").join (.ofString "d.js"))
      [Utf8.encode "d.js"] "y;" :=
    FileTree.holds_iff.mpr (by decide +kernel)
  have hmissing : ¬ ∃ loc text,
      w.tree.Holds ((Path.ofString ".").join (.ofString "e.js")) loc text :=
    FileTree.exists_readText_eq_error_iff.mp ⟨.notFound, by decide +kernel⟩
  have hstrip : (Statement.strip "x;console.log(1);console.log(2);").1 = "x;" := by decide +kernel
  have hfind : (findAll "x;console.log(1);console.log(2);").length = 2 := by decide +kernel
  obtain ⟨-, -, -, hrewrites, hagree⟩ :=
    removeStatements_outcome (.ofString ".") ⟨.ofString "c.js", ["1", "2", "3"]⟩ w
  obtain ⟨-, -, hkeeps, -⟩ :=
    removeStatements_outcome (.ofString ".") ⟨.ofString "d.js", ["1"]⟩ w
  obtain ⟨hdry, hfails, -⟩ :=
    removeStatements_outcome (.ofString ".") ⟨.ofString "e.js", ["1"]⟩ w
  refine ⟨?_, ?_, ?_, ?_, (hagree ⟨.ofString "c.js", []⟩ rfl).1⟩
  · obtain ⟨tree, hrewritten, hremoves⟩ :=
      hrewrites _ _ hchained (by rw [← List.length_pos_iff, hfind]; decide)
    rw [hstrip] at hrewritten
    rw [hfind] at hremoves
    exact ⟨tree, hrewritten, congrArg upshot hremoves, congrArg (·.tree) (congrArg ending hremoves)⟩
  · obtain ⟨fault, hfault⟩ := hfails hmissing
    exact ⟨fault, congrArg upshot hfault⟩
  · exact congrArg upshot (hkeeps _ _ hclean (by decide +kernel))
  · exact congrArg upshot hdry

end ConsoleSweep
