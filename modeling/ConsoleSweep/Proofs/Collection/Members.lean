import Mathlib.Data.List.TakeWhile
import ConsoleSweep.Collect
import ConsoleSweep.FileTree.Edit
import ConsoleSweep.Proofs.FileTree.Store

/-!
# What is collected

A file is collected if every directory on the way to it is entered and it is taken itself, which is
`Collection.Member`. A collection that is not stopped holds just the members
(`mem_iff_of_among`), and `collect_eq_ok_iff_among` says where it looks for them.
-/

namespace ConsoleSweep.Collection

variable {s : Selection} {tree : FileTree} {root : Path} {nodes : List (Location × Node)}
  {rel dir : List Name} {node : Node}

/-- Something below the root that is reached and collected. -/
structure Member (s : Selection) (tree : FileTree) (root : Path) (nodes : List (Location × Node))
    (rel : List Name) (node : Node) : Prop where
  there : (rel, node) ∈ nodes
  reached : reached s root nodes rel = true
  collects : collects s tree root rel node = true

/-- Every directory on the way to what is collected is there and is entered. -/
theorem Member.enters (h : Member s tree root nodes rel node) (hdir : dir ∈ ancestors rel) :
    (dir, .dir) ∈ nodes ∧ admits s root dir true = true := by
  have hentered := List.all_eq_true.mp h.reached dir hdir
  rw [entered, Bool.and_eq_true, List.contains_iff_mem] at hentered
  exact hentered

/-- What is collected is admitted as a file. -/
theorem Member.admits (h : Member s tree root nodes rel node) : admits s root rel false = true := by
  have hcollects := h.collects
  cases node with
  | file data => exact hcollects
  | dir => cases hcollects
  | link target => exact (Bool.and_eq_true _ _ ▸ hcollects : _ ∧ _).1

/-- The directories on the way to something are the paths that go on to it. -/
theorem mem_ancestors_iff : dir ∈ ancestors rel ↔ dir ≠ [] ∧ dir <+: rel ∧ dir ≠ rel := by
  rw [ancestors, List.mem_map]
  constructor
  · rintro ⟨k, hk, rfl⟩
    rw [List.mem_range] at hk
    have hlength : (rel.take (k + 1)).length = k + 1 := List.length_take_of_le (by omega)
    refine ⟨List.ne_nil_of_length_eq_add_one hlength, List.take_prefix _ _, fun heq => ?_⟩
    rw [heq] at hlength
    omega
  · rintro ⟨hne, hstart, hproper⟩
    have hpos := List.length_pos_iff.mpr hne
    have hshorter := hstart.length_le.lt_of_ne fun heq => hproper (hstart.eq_of_length heq)
    refine ⟨dir.length - 1, List.mem_range.mpr (by omega), ?_⟩
    rw [Nat.sub_add_cancel hpos]
    exact (List.prefix_iff_eq_take.mp hstart).symm

/-- Something is admitted if it is selected, or if it is not mentioned and its name is not hidden.
-/
theorem admits_iff {isDir : Bool} : Collection.admits s root rel isDir = true ↔
    s.verdict (candidate root (root.join (.ofNames rel))) isDir = .selected ∨
      s.verdict (candidate root (root.join (.ofNames rel))) isDir = .unmentioned ∧
        isHidden (rel.getLastD []) = false := by
  unfold Collection.admits
  cases s.verdict (candidate root (root.join (.ofNames rel))) isDir <;> simp

/-- A file is collected if it is admitted, and a link if it leads to a file besides. -/
theorem collects_iff : collects s tree root rel node = true ↔
    Collection.admits s root rel false = true ∧ ((∃ data, node = .file data) ∨
      (∃ target, node = .link target) ∧ tree.isFile (root.join (.ofNames rel)) = true) := by
  cases node <;> simp [collects]

/-- Something below a location is reached if all on the way to it are directories that are
admitted. -/
theorem reached_iff {loc : Location} : Collection.reached s root (tree.below loc) rel = true ↔
    ∀ dir, dir ≠ [] → dir <+: rel → dir ≠ rel →
      tree.get? (loc ++ dir) = some .dir ∧ Collection.admits s root dir true = true := by
  rw [Collection.reached, List.all_eq_true]
  refine forall_congr' fun dir => ?_
  rw [mem_ancestors_iff, entered, Bool.and_eq_true, List.contains_iff_mem, FileTree.mem_below_iff]
  constructor
  · intro h hne hstart hproper
    obtain ⟨⟨-, hget⟩, hadmits⟩ := h ⟨hne, hstart, hproper⟩
    exact ⟨hget, hadmits⟩
  · rintro h ⟨hne, hstart, hproper⟩
    obtain ⟨hget, hadmits⟩ := h hne hstart hproper
    exact ⟨⟨hne, hget⟩, hadmits⟩

/-- A collection is not stopped if no directory that is reached is too long to list, and then it
holds what is reached and collected, in order. -/
theorem among_eq_iff {files : List Path} : among s tree root nodes = ⟨files, none⟩ ↔
    (∀ e ∈ nodes, Collection.reached s root nodes e.1 = true → tooLong s root e.1 e.2 = false) ∧
      files = (nodes.filter fun e => Collection.reached s root nodes e.1 &&
        Collection.collects s tree root e.1 e.2).map fun e => .ofNames e.1 := by
  have hstopped : (nodes.filter fun e => Collection.reached s root nodes e.1).find?
        (fun e => tooLong s root e.1 e.2) = none ↔
      ∀ e ∈ nodes, Collection.reached s root nodes e.1 = true → tooLong s root e.1 e.2 = false := by
    simp only [List.find?_eq_none, List.mem_filter, Bool.not_eq_true, and_imp]
  rw [among, Collection.mk.injEq, Option.map_eq_none_iff, hstopped, and_comm]
  refine and_congr_right fun h => ?_
  have hall : (nodes.filter fun e => Collection.reached s root nodes e.1).takeWhile
      (fun e => !tooLong s root e.1 e.2) =
        nodes.filter fun e => Collection.reached s root nodes e.1 := by
    rw [List.takeWhile_eq_self_iff]
    intro e he
    obtain ⟨hmem, hreached⟩ := List.mem_filter.mp he
    rw [h e hmem hreached]
    rfl
  rw [hall, List.filter_filter, eq_comm]
  simp only [Bool.and_comm]

/-- A collection that is not stopped holds just the members. -/
theorem mem_iff_of_among {files : List Path} (h : among s tree root nodes = ⟨files, none⟩)
    {file : Path} :
    file ∈ files ↔ ∃ rel node, Member s tree root nodes rel node ∧ file = .ofNames rel := by
  obtain ⟨-, rfl⟩ := among_eq_iff.mp h
  simp only [List.mem_map, List.mem_filter, Bool.and_eq_true]
  constructor
  · rintro ⟨⟨rel, node⟩, ⟨hthere, hreached, hcollects⟩, rfl⟩
    exact ⟨rel, node, ⟨hthere, hreached, hcollects⟩, rfl⟩
  · rintro ⟨rel, node, hmember, rfl⟩
    exact ⟨(rel, node), ⟨hmember.there, hmember.reached, hmember.collects⟩, rfl⟩

/-- The files of a run are those of a collection that is not stopped. -/
theorem collect_eq_ok_iff {o : Options} {files : List Path} :
    collect o tree = .ok files ↔ run o tree = ⟨files, none⟩ := by
  unfold collect
  obtain ⟨found, stopped⟩ := run o tree
  cases stopped <;> simp

/-- **A run collects** if the root leads to a directory and the selection can be built: nothing from
standard input, and otherwise what is below that directory, if that is not stopped. -/
theorem collect_eq_ok_iff_among {o : Options} {files : List Path} : collect o tree = .ok files ↔
    ∃ loc s, tree.resolve? o.root = .ok loc ∧ tree.get? loc = some .dir ∧
      Selection.ofOptions o = .ok s ∧
      (o.root.components = [standardInput] ∧ files = [] ∨
        o.root.components ≠ [standardInput] ∧
          among s tree o.root (tree.below loc) = ⟨files, none⟩) := by
  rw [collect_eq_ok_iff, run]
  cases hloc : tree.resolve? o.root with
  | error fault => simp
  | ok loc =>
    cases hs : Selection.ofOptions o with
    | error bad =>
      by_cases hdir : tree.get? loc = some .dir <;> simp [hdir]
    | ok s =>
      by_cases hdir : tree.get? loc = some .dir
      · by_cases hinput : o.root.components = [standardInput]
        · simp [hdir, hinput, eq_comm]
        · simp [hdir, hinput]
      · simp [hdir]

/-- A tree with a file below a directory that is named as standard input is. -/
def dashTree : FileTree := FileTree.empty.attemptAll [.file (.ofString "-/a.js") []]

theorem collect_dash : collect (.ofRoot (.ofString "-")) dashTree = .ok [] := by decide +kernel

/-- Every file of a run is a member. -/
theorem exists_member_of_collect {o : Options} {files : List Path}
    (h : collect o tree = .ok files) :
    ∃ loc s, tree.resolve? o.root = .ok loc ∧ Selection.ofOptions o = .ok s ∧
      ∀ file ∈ files, ∃ rel node, Member s tree o.root (tree.below loc) rel node ∧
        file = .ofNames rel := by
  obtain ⟨loc, s, hloc, -, hs, hinput | ⟨-, hamong⟩⟩ := collect_eq_ok_iff_among.mp h
  · refine ⟨loc, s, hloc, hs, fun file hfile => ?_⟩
    rw [hinput.2] at hfile
    cases hfile
  · refine ⟨loc, s, hloc, hs, fun file hfile => ?_⟩
    exact (mem_iff_of_among hamong).mp hfile

end ConsoleSweep.Collection
