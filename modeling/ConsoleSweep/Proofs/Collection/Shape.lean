import ConsoleSweep.Collect
import ConsoleSweep.Proofs.FileTree.Shape

/-!
# What is collected does not depend on what the files hold

Collecting looks at names, kinds and links, never at the bytes of a file, so two trees of one shape
give the same collection (`run_congr`), and a run that only rewrites files collects the same files
again.
-/

namespace ConsoleSweep

/-- Something below the root without the bytes of a file. -/
def bareEntry (entry : List Name × Node) : List Name × Node := (entry.1, entry.2.shape)

namespace FileTree

/-- What is below a location, without the bytes of files, is the same in trees of one shape. -/
theorem SameShape.below {before after : FileTree} (h : before.SameShape after) (loc : Location) :
    (before.below loc).map bareEntry = (after.below loc).map bareEntry := by
  have hshape : ∀ tree : FileTree, (tree.below loc).map bareEntry =
      tree.shape.filterMap fun e =>
        if loc.isPrefixOf e.1 && loc != e.1 then some (e.1.drop loc.length, e.2) else none := by
    intro tree
    rw [FileTree.below, List.map_filterMap, FileTree.shape, List.filterMap_map]
    congr 1
    funext entry
    obtain ⟨place, node⟩ := entry
    simp only [Function.comp_apply]
    split <;> rfl
  rw [hshape, hshape, h]

end FileTree

namespace Collection

variable {before after : FileTree} {nodes nodes' : List (List Name × Node)}

theorem shape_eq_dir_iff {node : Node} : node.shape = .dir ↔ node = .dir := by
  cases node <;> simp [Node.shape]

/-- Which directories there are is seen without the bytes of files. -/
theorem mem_dir_map_bareEntry {rel : List Name} :
    (rel, Node.dir) ∈ nodes.map bareEntry ↔ (rel, Node.dir) ∈ nodes := by
  simp only [List.mem_map, bareEntry, Prod.mk.injEq, shape_eq_dir_iff]
  constructor
  · rintro ⟨⟨rel', node⟩, hmem, rfl, rfl⟩
    exact hmem
  · exact fun hmem => ⟨(rel, .dir), hmem, rfl, rfl⟩

theorem reached_congr (h : nodes.map bareEntry = nodes'.map bareEntry) (s : Selection) (root : Path)
    (rel : List Name) : reached s root nodes rel = reached s root nodes' rel := by
  have hentered : entered s root nodes = entered s root nodes' := by
    funext rel
    have hmem : nodes.contains (rel, .dir) = nodes'.contains (rel, .dir) := by
      rw [Bool.eq_iff_iff, List.contains_iff_mem, List.contains_iff_mem, ← mem_dir_map_bareEntry, h,
        mem_dir_map_bareEntry]
    rw [entered, entered, hmem]
  rw [reached, reached, hentered]

/-- Whether something is collected is seen without the bytes of files. -/
theorem collects_bareEntry (s : Selection) (tree : FileTree) (root : Path)
    (entry : List Name × Node) :
    collects s tree root (bareEntry entry).1 (bareEntry entry).2 =
      collects s tree root entry.1 entry.2 := by
  obtain ⟨rel, _ | _ | _⟩ := entry <;> rfl

theorem tooLong_bareEntry (s : Selection) (root : Path) (entry : List Name × Node) :
    tooLong s root (bareEntry entry).1 (bareEntry entry).2 = tooLong s root entry.1 entry.2 := by
  obtain ⟨rel, _ | _ | _⟩ := entry <;> rfl

/-- A collection is made without the bytes of files. -/
theorem among_map_bareEntry (s : Selection) (tree : FileTree) (root : Path)
    (nodes : List (List Name × Node)) :
    among s tree root (nodes.map bareEntry) = among s tree root nodes := by
  have hreached : ∀ rel, reached s root (nodes.map bareEntry) rel = reached s root nodes rel := by
    intro rel
    refine reached_congr ?_ s root rel
    rw [List.map_map]
    refine List.map_congr_left fun entry _ => ?_
    obtain ⟨rel, _ | _ | _⟩ := entry <;> rfl
  have hseen : (nodes.map bareEntry).filter (fun e => reached s root (nodes.map bareEntry) e.1) =
      (nodes.filter fun e => reached s root nodes e.1).map bareEntry := by
    rw [List.filter_map]
    simp only [hreached]
    rfl
  simp only [among, hseen, List.takeWhile_map, List.filter_map, List.find?_map, List.map_map,
    Option.map_map, Function.comp_def, collects_bareEntry, tooLong_bareEntry]
  rfl

theorem among_congr_tree (h : before.SameShape after) (s : Selection) (root : Path)
    (nodes : List (List Name × Node)) : among s before root nodes = among s after root nodes := by
  have hcollects : collects s before root = collects s after root := by
    funext rel node
    cases node <;> simp only [collects, h.isFile]
  rw [among, among, hcollects]

/-- Two trees of one shape give the same collection. -/
theorem run_congr (h : before.SameShape after) (o : Options) : run o before = run o after := by
  have hdir : ∀ loc, (before.get? loc != some .dir) = (after.get? loc != some .dir) := by
    intro loc
    have hthere := h.alike loc
    generalize before.get? loc = there, after.get? loc = there' at hthere
    cases hthere <;> rfl
  have hamong : ∀ s loc, among s before o.root (before.below loc) =
      among s after o.root (after.below loc) := by
    intro s loc
    rw [← among_map_bareEntry, h.below, among_map_bareEntry, among_congr_tree h]
  simp only [run, h.resolve?, hdir, hamong]

end Collection

/-- Two trees of one shape hold the same files of a run. -/
theorem collect_congr {before after : FileTree} (h : before.SameShape after) (o : Options) :
    collect o before = collect o after := by
  rw [collect, collect, Collection.run_congr h]

end ConsoleSweep
