import Mathlib.Logic.Function.Iterate
import ConsoleSweep.Proofs.FileTree.Content
import ConsoleSweep.Proofs.Statement.Strip

/-!
# Stripping files of a tree, one after the other

`stripFiles` goes through paths in order and strips the file each of them leads to, reading it as it
is at that moment. Several paths may lead to one file, through links, and then it is stripped once
for each of them. The main statement says what is left of every file in terms of the tree at the
start: its text, stripped as often as paths lead to it (`textOf_stripFiles`), with the shape and all
other files as they were.
-/

namespace ConsoleSweep.FileTree

open Statement (stripped findAll)

/-- Strips the file a path leads to, and gives the number of statements removed. -/
def stripFile (tree : FileTree) (path : Path) : Except Fault (FileTree × Nat) :=
  match h : tree.resolve? path with
  | .error fault => .error fault
  | .ok loc => do
    let text ← tree.readText path
    return (tree.put loc (.file (Utf8.encode (stripped text))) (named_resolve? h),
      (findAll text).length)

/-- Strips the files that paths lead to, in order, and gives the number of statements removed for
each path. -/
def stripFiles (tree : FileTree) : List Path → Except Fault (FileTree × List Nat)
  | [] => .ok (tree, [])
  | path :: rest => do
    let (next, removed) ← tree.stripFile path
    let (last, counts) ← next.stripFiles rest
    return (last, removed :: counts)

/-- How many of some paths lead to where a path leads. -/
def sharing (tree : FileTree) (paths : List Path) (path : Path) : Nat :=
  paths.countP fun other => (tree.resolve? other).toOption == (tree.resolve? path).toOption

variable {tree next last : FileTree} {path other : Path} {paths : List Path} {loc : Location}
  {text : String} {removed : Nat} {counts : List Nat}

/-! ## One file -/

theorem stripFile_eq_ok_iff :
    tree.stripFile path = .ok (next, removed) ↔
      ∃ loc text, ∃ hloc : tree.resolve? path = .ok loc,
        tree.get? loc = some (.file (Utf8.encode text)) ∧
        next = tree.put loc (.file (Utf8.encode (stripped text))) (named_resolve? hloc) ∧
        removed = (findAll text).length := by
  rw [stripFile]
  split
  next fault hfault => simp [hfault]
  next loc hloc =>
    constructor
    · intro h
      cases htext : tree.readText path with
      | error fault => rw [htext] at h; cases h
      | ok text =>
        rw [htext] at h
        cases h
        obtain ⟨loc', hloc', hfile⟩ := readText_eq_ok_iff.mp htext
        cases hloc.symm.trans hloc'
        exact ⟨loc, text, hloc, hfile, rfl, rfl⟩
    · rintro ⟨loc', text, hloc', hfile, rfl, rfl⟩
      cases hloc.symm.trans hloc'
      rw [readText_eq_ok_iff.mpr ⟨loc, hloc, hfile⟩]
      rfl

/-- Paths that lead to the same place read the same text. -/
theorem readText_of_together
    (htogether : (tree.resolve? path).toOption = (tree.resolve? other).toOption)
    (h : tree.readText path = .ok text) : tree.readText other = .ok text := by
  obtain ⟨loc, hloc, hfile⟩ := readText_eq_ok_iff.mp h
  cases hother : tree.resolve? other with
  | error fault => simp [hloc, hother, Except.toOption] at htogether
  | ok loc' =>
    rw [hloc, hother] at htogether
    cases htogether
    exact readText_eq_ok_iff.mpr ⟨loc, hother, hfile⟩

theorem sameShape_stripFile (h : tree.stripFile path = .ok (next, removed)) :
    tree.SameShape next := by
  obtain ⟨loc, text, -, hfile, rfl, -⟩ := stripFile_eq_ok_iff.mp h
  exact sameShape_put_file hfile

/-- Stripping a file leaves everything at other locations. -/
theorem get?_stripFile_of_ne (h : tree.stripFile path = .ok (next, removed))
    (hne : tree.resolve? path ≠ .ok loc) : next.get? loc = tree.get? loc := by
  obtain ⟨place, text, hplace, -, rfl, -⟩ := stripFile_eq_ok_iff.mp h
  exact get?_put_of_ne fun heq => hne (heq ▸ hplace)

/-- After a file is stripped, every path that leads to it reads the stripped text, and every other
path reads what it read before. -/
theorem readText_stripFile (h : tree.stripFile path = .ok (next, removed)) (other : Path) :
    next.readText other =
      if (tree.resolve? other).toOption = (tree.resolve? path).toOption then
        (tree.readText other).map stripped
      else tree.readText other := by
  have hshape := sameShape_stripFile h
  obtain ⟨place, text, hplace, hfile, rfl, -⟩ := stripFile_eq_ok_iff.mp h
  rw [readText_eq, readText_eq, ← hshape.resolve? other, hplace]
  cases hother : tree.resolve? other with
  | error fault => simp [Except.toOption, bind, Except.bind]
  | ok loc =>
    by_cases heq : loc = place
    · -- the same file: it holds the stripped text now
      subst heq
      have hnow : contents (some (.file (Utf8.encode (stripped text)))) = .ok (stripped text) :=
        contents_eq_ok_iff.mpr rfl
      simp only [bind, Except.bind, get?_put_self (ne_nil_of_get?_file hfile), hnow, hfile,
        contents_eq_ok_iff.mpr rfl, if_true, Except.map]
    · simp [bind, Except.bind, get?_put_of_ne heq, Except.toOption, heq]

theorem textOf_stripFile (h : tree.stripFile path = .ok (next, removed)) (other : Path) :
    next.textOf other = stripped^[tree.sharing [path] other] (tree.textOf other) := by
  rw [textOf, readText_stripFile h, sharing, List.countP_singleton]
  by_cases heq : (tree.resolve? path).toOption = (tree.resolve? other).toOption
  · obtain ⟨loc, text, hloc, hfile, -, -⟩ := stripFile_eq_ok_iff.mp h
    have htext := readText_of_together heq (readText_eq_ok_iff.mpr ⟨loc, hloc, hfile⟩)
    simp only [heq, if_true, beq_self_eq_true, Function.iterate_one, htext,
      textOf_of_readText htext]
    rfl
  · simp [heq, Ne.symm heq, textOf]

theorem exists_readText_stripFile (h : tree.stripFile path = .ok (next, removed))
    (hread : ∃ text, tree.readText other = .ok text) : ∃ text, next.readText other = .ok text := by
  obtain ⟨text, htext⟩ := hread
  rw [readText_stripFile h, htext]
  split
  · exact ⟨_, rfl⟩
  · exact ⟨_, rfl⟩

/-! ## Several files -/

theorem sharing_cons (tree : FileTree) (path : Path) (rest : List Path) (other : Path) :
    tree.sharing (path :: rest) other = tree.sharing rest other + tree.sharing [path] other := by
  rw [sharing, sharing, sharing, List.countP_cons, List.countP_singleton]

theorem SameShape.sharing (h : tree.SameShape next) (paths : List Path) (path : Path) :
    tree.sharing paths path = next.sharing paths path := by
  simp only [FileTree.sharing, h.resolve?]

/-- Stripping several files is stripping the first and then the others. -/
theorem stripFiles_cons_eq_ok_iff {rest : List Path} :
    tree.stripFiles (path :: rest) = .ok (last, counts) ↔
      ∃ next removed others, tree.stripFile path = .ok (next, removed) ∧
        next.stripFiles rest = .ok (last, others) ∧ counts = removed :: others := by
  rw [stripFiles]
  constructor
  · intro h
    cases hfirst : tree.stripFile path with
    | error fault => rw [hfirst] at h; cases h
    | ok first =>
      obtain ⟨next, removed⟩ := first
      cases hrest : next.stripFiles rest with
      | error fault => simp [hfirst, hrest, bind, Except.bind] at h
      | ok result =>
        obtain ⟨last', others⟩ := result
        simp only [hfirst, hrest, bind, Except.bind, pure, Except.pure, Except.ok.injEq,
          Prod.mk.injEq] at h
        obtain ⟨rfl, rfl⟩ := h
        exact ⟨next, removed, others, rfl, hrest, rfl⟩
  · rintro ⟨next, removed, others, hfirst, hrest, rfl⟩
    simp [hfirst, hrest, bind, Except.bind, pure, Except.pure]

/-- Stripping the files of two lists, one list after the other. -/
theorem stripFiles_append {others : List Path} {counts' : List Nat}
    (h : tree.stripFiles paths = .ok (next, counts))
    (h' : next.stripFiles others = .ok (last, counts')) :
    tree.stripFiles (paths ++ others) = .ok (last, counts ++ counts') := by
  induction paths generalizing tree counts with
  | nil => cases h; exact h'
  | cons path rest ih =>
    obtain ⟨mid, removed, counts, hfirst, hrest, rfl⟩ := stripFiles_cons_eq_ok_iff.mp h
    exact stripFiles_cons_eq_ok_iff.mpr ⟨mid, removed, _, hfirst, ih hrest, rfl⟩

/-- Stripping files keeps the shape of the tree. -/
theorem sameShape_stripFiles (h : tree.stripFiles paths = .ok (last, counts)) :
    tree.SameShape last := by
  induction paths generalizing tree counts with
  | nil => cases h; exact .refl _
  | cons path rest ih =>
    obtain ⟨next, removed, others, hfirst, hrest, rfl⟩ := stripFiles_cons_eq_ok_iff.mp h
    exact (sameShape_stripFile hfirst).trans (ih hrest)

/-- Stripping files leaves everything at other locations. -/
theorem get?_stripFiles_of_ne (h : tree.stripFiles paths = .ok (last, counts))
    (hne : ∀ path ∈ paths, tree.resolve? path ≠ .ok loc) : last.get? loc = tree.get? loc := by
  induction paths generalizing tree counts with
  | nil => cases h; rfl
  | cons path rest ih =>
    obtain ⟨next, removed, others, hfirst, hrest, rfl⟩ := stripFiles_cons_eq_ok_iff.mp h
    have hnext : ∀ other ∈ rest, next.resolve? other ≠ .ok loc := fun other hother => by
      rw [← (sameShape_stripFile hfirst).resolve? other]
      exact hne other (List.mem_cons_of_mem _ hother)
    rw [ih hrest hnext, get?_stripFile_of_ne hfirst (hne path List.mem_cons_self)]

/-- A path that could be read before files are stripped can be read after. -/
theorem exists_readText_stripFiles (h : tree.stripFiles paths = .ok (last, counts))
    (hread : ∃ text, tree.readText other = .ok text) : ∃ text, last.readText other = .ok text := by
  induction paths generalizing tree counts with
  | nil => cases h; exact hread
  | cons path rest ih =>
    obtain ⟨next, removed, others, hfirst, hrest, rfl⟩ := stripFiles_cons_eq_ok_iff.mp h
    exact ih hrest (exists_readText_stripFile hfirst hread)

/-- **What stripping files leaves of a text**: it is stripped as often as paths lead to it. -/
theorem textOf_stripFiles (h : tree.stripFiles paths = .ok (last, counts)) (other : Path) :
    last.textOf other = stripped^[tree.sharing paths other] (tree.textOf other) := by
  induction paths generalizing tree counts with
  | nil => cases h; rfl
  | cons path rest ih =>
    obtain ⟨next, removed, others, hfirst, hrest, rfl⟩ := stripFiles_cons_eq_ok_iff.mp h
    rw [ih hrest, textOf_stripFile hfirst, ← (sameShape_stripFile hfirst).sharing,
      sharing_cons tree path rest, Function.iterate_add_apply]

/-- How many statements are removed for a path when the earlier ones have been seen to. -/
def removedAt (tree : FileTree) (paths : List Path) (i : Nat) (path : Path) : Nat :=
  (findAll (stripped^[tree.sharing (paths.take i) path] (tree.textOf path))).length

/-- **What stripping files removes**: for each path, the statements of its text as the paths before
it have left it. -/
theorem counts_stripFiles (h : tree.stripFiles paths = .ok (last, counts)) :
    counts = paths.mapIdx (tree.removedAt paths) := by
  induction paths generalizing tree counts with
  | nil => cases h; rfl
  | cons path rest ih =>
    obtain ⟨next, removed, others, hfirst, hrest, rfl⟩ := stripFiles_cons_eq_ok_iff.mp h
    rw [List.mapIdx_cons]
    congr 1
    · obtain ⟨loc, text, hloc, hfile, -, rfl⟩ := stripFile_eq_ok_iff.mp hfirst
      have htext := readText_eq_ok_iff.mpr ⟨loc, hloc, hfile⟩
      simp [removedAt, sharing, textOf_of_readText htext]
    · rw [ih hrest]
      congr 1
      funext i other
      rw [removedAt, removedAt, textOf_stripFile hfirst, ← (sameShape_stripFile hfirst).sharing,
        ← Function.iterate_add_apply, List.take_succ_cons, sharing_cons tree path (rest.take i)]

/-! ## Stripping until a file cannot be read -/

variable {root file : Path} {files : List Path}

end ConsoleSweep.FileTree
