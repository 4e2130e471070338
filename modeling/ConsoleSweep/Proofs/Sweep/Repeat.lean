import ConsoleSweep.Proofs.Collection.Shape
import ConsoleSweep.Proofs.Sweep.Effect

/-!
# Running a second time

A second run collects the same files, as stripping keeps the shape of the tree. Whether it finds
anything in them is a matter of the texts alone: a file that `n` collected paths lead to has been
stripped `n` times, and one stripping may leave statements, put together from what stood around the
ones it deleted. `nothingFound_again_iff` is the exact condition, and `second_run_removes_more` is a
file that does not meet it.
-/

namespace ConsoleSweep

open ConsoleSweep.Action
open Statement (stripped findAll)

theorem FileTree.hasStatements_eq_false_iff {tree : FileTree} {path : Path} :
    tree.hasStatements path = false ↔ findAll (tree.textOf path) = [] := by
  rw [hasStatements, Bool.not_eq_false', List.isEmpty_iff]

namespace Setup

theorem affected_eq_nil_iff {s : Setup} {tree : FileTree} {files : List Path} :
    s.affected tree files = [] ↔
      ∀ file ∈ files, findAll (tree.textOf (s.options.root.join file)) = [] := by
  rw [affected, List.filter_eq_nil_iff, List.forall_mem_map]
  simp only [Bool.not_eq_true, FileTree.hasStatements_eq_false_iff]

/-- **When a second run finds nothing.** After a run that agrees by itself has ended well, running
again ends well too. It finds nothing, and leaves the tree as it is, exactly if every collected file
holds no statement once it has been stripped as often as paths to files with statements lead to it;
else it is completed. -/
theorem nothingFound_again_iff (o : Options) (p : Palette) (hreal : o.dryRun = false)
    {w w' v : World} (hroom : w.sink.room = none) (hroom' : v.sink.room = none)
    (htree : v.tree = w'.tree) {outcome : Outcome}
    (h : (Setup.mk o p (.fixed true) .none).run w = .ok outcome w') :
    let s : Setup := ⟨o, p, .fixed true, .none⟩
    ∃ files v' outcome', collect o w.tree = .ok files ∧ s.run v = .ok outcome' v' ∧
      (outcome' = .nothingFound ∧ v'.tree = v.tree ↔
        ∀ file ∈ files, findAll (stripped^[w.tree.sharing (s.affected w.tree files)
          (o.root.join file)] (w.tree.textOf (o.root.join file))) = []) := by
  intro s
  obtain ⟨files, counts, hcollect, hread, hstrip⟩ :=
    exists_stripFiles_of_agreed (s := s) rfl hreal rfl hroom h
  rw [← htree] at hstrip
  -- the second run starts from a tree of the same shape, in which all texts are known
  have hcollect' : collect o v.tree = .ok files := by
    rw [← collect_congr (FileTree.sameShape_stripFiles hstrip) o]
    exact hcollect
  have hread' : ∀ file ∈ files, v.tree.Readable (o.root.join file) := fun file hfile =>
    FileTree.exists_readText_stripFiles hstrip (hread file hfile)
  have htexts : s.affected v.tree files = [] ↔
      ∀ file ∈ files, findAll (stripped^[w.tree.sharing (s.affected w.tree files)
        (o.root.join file)] (w.tree.textOf (o.root.join file))) = [] := by
    rw [affected_eq_nil_iff]
    simp only [FileTree.textOf_stripFiles hstrip]
    rfl
  rcases agreed_cases (s := s) rfl hreal rfl hroom' hcollect' hread' with
    ⟨hnone, v', hruns, hsame⟩ | ⟨hsome, counts', v', hruns, -⟩
  · exact ⟨files, v', _, hcollect, hruns, iff_of_true ⟨rfl, hsame⟩ (htexts.mp hnone)⟩
  · refine ⟨files, v', _, hcollect, hruns, iff_of_false ?_ (mt htexts.mpr hsome)⟩
    rintro ⟨hend, -⟩
    cases hend

set_option maxRecDepth 10000 in
theorem nothingFound_again_linked :
    ∃ w' files v' outcome',
      agreedHere.run (.start fileAndLinkTree none []) = .ok (.completed ⟨2, 2, 1⟩) w' ∧
      agreedHere.run (.start w'.tree none []) = .ok outcome' v' ∧
      (outcome' = .nothingFound ∧ v'.tree = w'.tree ↔
        ∀ file ∈ files, findAll
          (stripped^[fileAndLinkTree.sharing (agreedHere.affected fileAndLinkTree files)
            (agreedHere.options.root.join file)]
            (fileAndLinkTree.textOf (agreedHere.options.root.join file))) = []) := by
  obtain ⟨w', h⟩ : ∃ w',
      agreedHere.run (.start fileAndLinkTree none []) = .ok (.completed ⟨2, 2, 1⟩) w' :=
    ⟨_, eq_ok_of_result? (by decide +kernel)⟩
  have htree : (World.start w'.tree none []).tree = w'.tree := rfl
  obtain ⟨files, v', outcome', -, hruns, hiff⟩ :=
    nothingFound_again_iff agreedHere.options agreedHere.palette rfl rfl rfl htree h
  exact ⟨w', files, v', outcome', h, hruns, hiff⟩

/-- A directory with a file in which a statement stands inside the name of another one. -/
def nestedTree : FileTree := FileTree.empty.attempt
  (.file (.ofString "a.js") (Utf8.encode "consconsole.log()ole.log()"))

set_option maxRecDepth 10000 in
/-- Deleting the inner statement leaves the outer one, which a second run finds. -/
theorem second_run_removes_more :
    let first := agreedHere.run (.start nestedTree none [])
    let second := agreedHere.run (.start (ending first).tree none [])
    result? first = some (.completed ⟨1, 1, 1⟩) ∧ result? second = some (.completed ⟨1, 1, 1⟩) := by
  decide +kernel

end Setup

end ConsoleSweep
