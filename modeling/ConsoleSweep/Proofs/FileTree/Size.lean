import Mathlib.Algebra.BigOperators.Group.Finset.Basic
import Mathlib.Algebra.Order.Ring.Nat
import ConsoleSweep.Proofs.FileTree.Strip

/-!
# The bytes that some paths lead to

`totalSize` adds up the bytes of the files that paths lead to, each file once however many of the
paths lead to it. Stripping one of these files takes thirteen bytes off it for each statement that
goes, and leaves the others alone, so that the total shrinks by as much
(`totalSize_stripFile`). Stripping several files one after the other adds these savings up, also
where some of the paths lead to one file (`totalSize_stripFiles`).
-/

namespace ConsoleSweep.FileTree

open Statement (stripped findAll length_encode_stripped)

/-- The places that paths lead to. -/
def reached (tree : FileTree) (paths : List Path) : Finset Location :=
  (paths.filterMap fun path => (tree.resolve? path).toOption).toFinset

/-- The number of bytes of the file at a location, none if there is no file. -/
def sizeAt (tree : FileTree) (loc : Location) : Nat :=
  match tree.get? loc with
  | some (.file data) => data.length
  | _ => 0

/-- The number of bytes of the files that paths lead to. -/
def totalSize (tree : FileTree) (paths : List Path) : Nat :=
  ∑ loc ∈ tree.reached paths, tree.sizeAt loc

variable {tree next last : FileTree} {path : Path} {paths stripping : List Path} {loc : Location}
  {removed : Nat} {counts : List Nat}

theorem mem_reached (hpath : path ∈ paths) (hloc : tree.resolve? path = .ok loc) :
    loc ∈ tree.reached paths := by
  rw [reached, List.mem_toFinset, List.mem_filterMap]
  exact ⟨path, hpath, by rw [hloc]; rfl⟩

theorem SameShape.reached (h : tree.SameShape next) (paths : List Path) :
    tree.reached paths = next.reached paths := by
  simp only [FileTree.reached, h.resolve?]

/-- Stripping one of the files that paths lead to saves thirteen bytes for each statement. -/
theorem totalSize_stripFile (hpath : path ∈ paths)
    (h : tree.stripFile path = .ok (next, removed)) :
    next.totalSize paths + 13 * removed ≤ tree.totalSize paths := by
  have hreached := (sameShape_stripFile h).reached paths
  obtain ⟨loc, text, hloc, hfile, hnext, rfl⟩ := stripFile_eq_ok_iff.mp h
  have hmem := mem_reached hpath hloc
  have hbefore : tree.sizeAt loc = (Utf8.encode text).length := by rw [sizeAt, hfile]
  have hafter : next.sizeAt loc = (Utf8.encode (stripped text)).length := by
    rw [hnext, sizeAt, get?_put_self (ne_nil_of_get?_file hfile)]
  -- all other files keep their bytes, so the two totals differ in this one summand
  have hothers : ∑ other ∈ (tree.reached paths).erase loc, next.sizeAt other =
      ∑ other ∈ (tree.reached paths).erase loc, tree.sizeAt other := by
    refine Finset.sum_congr rfl fun other hother => ?_
    rw [hnext, sizeAt, sizeAt, get?_put_of_ne (Finset.ne_of_mem_erase hother)]
  have hsplit := Finset.add_sum_erase _ (fun place => tree.sizeAt place) hmem
  have hsplit' := Finset.add_sum_erase _ (fun place => next.sizeAt place) hmem
  have hsaved := length_encode_stripped text
  rw [totalSize, totalSize, ← hreached]
  omega

/-- **Stripping files saves thirteen bytes for each statement**, whichever of the paths lead to one
file. -/
theorem totalSize_stripFiles (hsub : stripping ⊆ paths)
    (h : tree.stripFiles stripping = .ok (last, counts)) :
    last.totalSize paths + 13 * counts.sum ≤ tree.totalSize paths := by
  induction stripping generalizing tree counts with
  | nil =>
    cases h
    exact Nat.le_refl _
  | cons path rest ih =>
    obtain ⟨hpath, hrest⟩ := List.cons_subset.mp hsub
    obtain ⟨mid, removed, others, hfirst, hothers, rfl⟩ := stripFiles_cons_eq_ok_iff.mp h
    have hone := totalSize_stripFile hpath hfirst
    have hmore := ih hrest hothers
    rw [List.sum_cons]
    omega

end ConsoleSweep.FileTree
