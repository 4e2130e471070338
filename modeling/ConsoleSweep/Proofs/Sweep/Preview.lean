import ConsoleSweep.Proofs.Sweep.Effect

/-!
# What a dry run promises

A dry run adds up the statements that were scanned; a real run adds up those that it removes, from
files that it reads again. The two agree as long as no file is reached by two paths. When it is, the
first path strips it, and the second one finds what that has left, which the log takes for a change
from outside. `preview_iff` is the exact condition, and `preview_counts_twice` is a tree that does
not meet it.
-/

namespace ConsoleSweep

open ConsoleSweep.Action
open Statement (stripped findAll)

/-- Paths that lead to different places keep their statements until their turn comes. -/
theorem FileTree.removedAt_of_apart {tree : FileTree} {paths : List Path}
    (hapart : paths.Pairwise fun a b => (tree.resolve? a).toOption ≠ (tree.resolve? b).toOption)
    {i : Nat} {path : Path} (hpath : paths[i]? = some path) :
    tree.removedAt paths i path = (findAll (tree.textOf path)).length := by
  obtain ⟨hi, rfl⟩ := List.getElem?_eq_some_iff.mp hpath
  have hnone : tree.sharing (paths.take i) paths[i] = 0 := by
    rw [sharing, List.countP_eq_zero]
    intro other hother
    obtain ⟨j, hj, rfl⟩ := List.mem_take_iff_getElem.mp hother
    simpa using List.pairwise_iff_getElem.mp hapart j i (by omega) hi (by omega)
  rw [removedAt, hnone]
  rfl

/-- A removal warns exactly if it removes other numbers than were scanned. -/
theorem exists_warn_flatten_iff (root : Path) {results : List ScanResult} {counts : List Nat}
    (hlength : counts.length = results.length) :
    (∃ r ∈ (List.zipWith (removalRecords root) results counts).flatten, r.level = .warn) ↔
      counts ≠ results.map (·.count) := by
  induction results generalizing counts with
  | nil => simp [List.eq_nil_of_length_eq_zero hlength]
  | cons result rest ih =>
    obtain ⟨removed, others, rfl⟩ := List.exists_cons_of_length_eq_add_one hlength
    have hlength' : others.length = rest.length := by simpa using hlength
    rw [List.zipWith_cons_cons, List.flatten_cons, List.map_cons]
    simp only [List.mem_append, or_and_right, exists_or, exists_warn_removalRecords_iff,
      ih hlength', ne_eq, List.cons.injEq, not_and_or]

namespace Setup

variable {s : Setup} {w w' : World}

/-- A dry run that is completed adds up what was scanned. -/
theorem exists_found_of_completed_dry (hothers : s.others = .none) (hdry : s.options.dryRun = true)
    {summary : Summary} (h : s.run w = .ok (.completed summary) w') :
    ∃ files v, s.Surveyed files w v ∧ s.found w.tree files ≠ [] ∧
      summary = ⟨files.length, (s.found w.tree files).length,
        ((s.found w.tree files).map (·.count)).sum⟩ := by
  obtain ⟨files, v, u, hannounced, hcarries, ⟨-, rfl⟩ | ⟨hreal, -⟩⟩ :=
    exists_carryOut_of_completed (by rw [hothers]) h
  · obtain ⟨v₀, hsurveyed⟩ := hannounced.surveyed
    rw [carryOut_dry hdry] at hcarries
    rcases sumUp_cases s ⟨files.length, (s.found w.tree files).length,
      ((s.found w.tree files).map (·.count)).sum⟩ u with ⟨_, _, hsums, -⟩ | ⟨_, hsums, -⟩
    · rw [hcarries] at hsums
      cases hsums
      exact ⟨files, v₀, hsurveyed, hannounced.found, rfl⟩
    · rw [hcarries] at hsums
      cases hsums
  · rw [hreal] at hdry
    cases hdry

/-- A completed run warns exactly if it removes other numbers than were scanned. -/
theorem Completed.calm_iff {files : List Path} {counts : List Nat}
    (h : s.Completed files counts w w') :
    (∃ records, w'.log = w.log ++ records ∧ ∀ r ∈ records, r.level ≠ .warn) ↔
      counts = (s.found w.tree files).map (·.count) := by
  have hlength : counts.length = (s.found w.tree files).length := by
    rw [FileTree.counts_stripFiles h.tree, List.length_mapIdx, length_found]
  have hwarn := exists_warn_flatten_iff s.options.root hlength
  obtain ⟨before, after, hlog, hbefore, hafter⟩ := h.log
  constructor
  · rintro ⟨records, hrecords, hcalm⟩
    rw [hlog, List.append_cancel_left_eq] at hrecords
    -- other numbers would have been logged as a change, in the middle of the new records
    by_contra hne
    obtain ⟨r, hr, hlevel⟩ := hwarn.mpr hne
    refine hcalm r ?_ hlevel
    rw [← hrecords]
    exact List.mem_append_left _ (List.mem_append_right _ hr)
  · intro heq
    refine ⟨_, hlog, fun r hr => ?_⟩
    rcases List.mem_append.mp hr with hr | hr
    · rcases List.mem_append.mp hr with hr | hr
      · exact hbefore r hr
      · exact fun hlevel => hwarn.mp ⟨r, hr, hlevel⟩ heq
    · exact hafter r hr

/-- What a dry run with these totals promises of a run: that it has the same totals, that it removes
from each file the number that was scanned, and that it warns of no change. -/
structure AsPreviewed (s : Setup) (files : List Path) (counts : List Nat) (summary : Summary)
    (w w' : World) : Prop where
  completed : s.run w = .ok (.completed summary) w'
  counts : counts = (s.found w.tree files).map (·.count)
  calm : ∃ records, w'.log = w.log ++ records ∧ ∀ r ∈ records, r.level ≠ .warn

/-- A dry run collects the same files. -/
theorem collect_withDryRun (o : Options) (dryRun : Bool) (tree : FileTree) :
    collect (o.withDryRun dryRun) tree = collect o tree := rfl

/-- **When the preview is what happens.** A real run that follows a completed dry run on the same
tree, and agrees by itself, is completed too; for each file in turn, what it removes and reports are
the statements of the text as the paths before have left it. It keeps every promise of the dry run
exactly if these are as many as in the text at the start, and that is so if no two of the paths lead
to one place. -/
theorem preview_iff (o : Options) (p : Palette) (c : Confirmer) {u u' w : World}
    (htree : w.tree = u.tree) (hroom : w.sink.room = none) {summary : Summary}
    (h : (Setup.mk (o.withDryRun true) p c .none).run u = .ok (.completed summary) u') :
    let s : Setup := ⟨o.withDryRun false, p, .fixed true, .none⟩
    ∃ files counts w',
      s.run w = .ok (.completed ⟨files.length, (s.affected w.tree files).length, counts.sum⟩) w' ∧
      s.Completed files counts w w' ∧
      counts = (s.affected w.tree files).mapIdx (w.tree.removedAt (s.affected w.tree files)) ∧
      (s.AsPreviewed files counts summary w w' ↔
        ∀ i path, (s.affected w.tree files)[i]? = some path →
          w.tree.removedAt (s.affected w.tree files) i path =
            (findAll (w.tree.textOf path)).length) ∧
      ((s.affected w.tree files).Pairwise
          (fun a b => (w.tree.resolve? a).toOption ≠ (w.tree.resolve? b).toOption) →
        s.AsPreviewed files counts summary w w') := by
  intro s
  obtain ⟨files, v, hsurveyed, hsome, hsummary⟩ := exists_found_of_completed_dry rfl rfl h
  rw [← htree] at hsome hsummary
  have hcollect : collect s.options w.tree = .ok files := by
    show collect (o.withDryRun false) w.tree = .ok files
    rw [htree, collect_withDryRun, ← collect_withDryRun o true]
    exact hsurveyed.collected
  have hread : ∀ file ∈ files, w.tree.Readable (s.options.root.join file) := by
    rw [htree]
    exact hsurveyed.readable
  have hsome' : s.affected w.tree files ≠ [] := by
    rw [← paths_found]
    exact mt List.map_eq_nil_iff.mp hsome
  obtain ⟨hnone, -⟩ | ⟨-, counts, w', hruns, hcompleted⟩ :=
    agreed_cases (s := s) rfl rfl rfl hroom hcollect hread
  · exact absurd hnone hsome'
  -- the totals and the warnings follow from the numbers removed
  have hkept : s.AsPreviewed files counts summary w w' ↔
      counts = (s.found w.tree files).map (·.count) := by
    refine ⟨fun hkept => hkept.counts, fun heq => ⟨?_, heq, hcompleted.calm_iff.mpr heq⟩⟩
    rw [hruns, hsummary, heq, ← length_found]
    rfl
  have hcounts := FileTree.counts_stripFiles hcompleted.tree
  have hexact : s.AsPreviewed files counts summary w w' ↔
      ∀ i path, (s.affected w.tree files)[i]? = some path →
        w.tree.removedAt (s.affected w.tree files) i path =
          (findAll (w.tree.textOf path)).length := by
    rw [hkept, hcounts, counts_found, List.ext_getElem?_iff]
    refine forall_congr' fun i => ?_
    rw [List.getElem?_mapIdx, List.getElem?_map]
    cases (s.affected w.tree files)[i]? <;> simp
  exact ⟨files, counts, w', hruns, hcompleted, hcounts, hexact,
    fun hapart => hexact.mpr fun i path hpath => FileTree.removedAt_of_apart hapart hpath⟩

/-- A dry run in the current directory. -/
def dryHere : Setup := { agreedHere with options := agreedHere.options.withDryRun true }

set_option maxRecDepth 10000 in
theorem preview_linked :
    ∃ u' files counts w',
      dryHere.run (.start fileAndLinkTree none []) = .ok (.completed ⟨2, 2, 2⟩) u' ∧
      (agreedHere.AsPreviewed files counts ⟨2, 2, 2⟩ (.start fileAndLinkTree none []) w' ↔
        ∀ i path, (agreedHere.affected fileAndLinkTree files)[i]? = some path →
          fileAndLinkTree.removedAt (agreedHere.affected fileAndLinkTree files) i path =
            (findAll (fileAndLinkTree.textOf path)).length) := by
  obtain ⟨u', h⟩ : ∃ u',
      dryHere.run (.start fileAndLinkTree none []) = .ok (.completed ⟨2, 2, 2⟩) u' :=
    ⟨_, eq_ok_of_result? (by decide +kernel)⟩
  obtain ⟨files, counts, w', -, -, -, hexact, -⟩ :=
    preview_iff agreedHere.options agreedHere.palette dryHere.confirmer
      (w := .start fileAndLinkTree none []) rfl rfl h
  exact ⟨u', files, counts, w', h, hexact⟩

set_option maxRecDepth 10000 in
/-- A statement that two paths lead to is counted twice and removed once, with a warning. -/
theorem preview_counts_twice :
    let dry := dryHere.run (.start fileAndLinkTree none [])
    let real := agreedHere.run (.start fileAndLinkTree none [])
    result? dry = some (.completed ⟨2, 2, 2⟩) ∧ result? real = some (.completed ⟨2, 2, 1⟩) ∧
      (ending real).log.any (·.level == .warn) = true := by
  decide +kernel

end Setup

end ConsoleSweep
