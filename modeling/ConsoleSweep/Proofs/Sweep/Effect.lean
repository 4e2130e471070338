import ConsoleSweep.Proofs.Sweep.Consent

/-!
# What a completed run has done

A run that is completed has stripped the files in which it found statements, one after the other, in
the order in which they were collected, and it has left everything else as it was
(`tree_of_completed`). That holds however the run was confirmed and whatever room the sink had.

A run that agrees by itself, on a sink without a limit, can only fail while it collects or scans
(`agreed_cases`), and then all it does is known: the tree, the report and the warnings.
-/

namespace ConsoleSweep

open ConsoleSweep.Action
open Statement (stripped findAll)

/-- Whether the file a path leads to holds statements. -/
def FileTree.hasStatements (tree : FileTree) (path : Path) : Bool :=
  !(findAll (tree.textOf path)).isEmpty

namespace Setup

/-- The paths of the files, among those collected, that hold statements. -/
def affected (s : Setup) (tree : FileTree) (files : List Path) : List Path :=
  (files.map s.options.root.join).filter tree.hasStatements

variable {s : Setup} {tree : FileTree} {files : List Path} {w w' : World}

/-! ## Files with statements -/

theorem paths_found (s : Setup) (tree : FileTree) (files : List Path) :
    (s.found tree files).map (fun r => s.options.root.join r.path) = s.affected tree files := by
  rw [found, affected, List.filter_map, List.filter_map, List.map_map]
  rfl

theorem counts_found (s : Setup) (tree : FileTree) (files : List Path) :
    (s.found tree files).map (·.count) =
      (s.affected tree files).map fun path => (findAll (tree.textOf path)).length := by
  rw [found, affected, List.filter_map, List.filter_map, List.map_map, List.map_map]
  rfl

theorem length_found (s : Setup) (tree : FileTree) (files : List Path) :
    (s.found tree files).length = (s.affected tree files).length := by
  rw [← paths_found, List.length_map]

/-- Every file that holds statements has been scanned. -/
theorem readable_of_mem_found (hread : ∀ file ∈ files, tree.Readable (s.options.root.join file))
    {r : ScanResult} (hr : r ∈ s.found tree files) :
    tree.Readable (s.options.root.join r.path) := by
  obtain ⟨file, hfile, rfl⟩ := exists_of_mem_found hr
  exact hread file hfile

/-- A removal strips the files that hold statements. -/
theorem stripFiles_of_removed {counts : List Nat} {v : World}
    (h : v.Removed s (s.found tree files) counts w) :
    v.tree.stripFiles (s.affected tree files) = .ok (w.tree, counts) := by
  rw [← paths_found]
  exact h.tree

/-! ## Completed runs -/

/-- A real run is completed only by stripping the files that hold statements. -/
theorem exists_stripFiles_of_completed (hothers : s.others = .none)
    (hdiscreet : s.confirmer.Discreet) (hreal : s.options.dryRun = false) {summary : Summary}
    (h : s.run w = .ok (.completed summary) w') :
    ∃ files v counts, s.Surveyed files w v ∧
      w.tree.stripFiles (s.affected w.tree files) = .ok (w'.tree, counts) ∧
      summary = ⟨files.length, (s.affected w.tree files).length, counts.sum⟩ := by
  obtain ⟨files, v, u, hannounced, hcarries, ⟨hdry, -⟩ | ⟨-, hconfirm⟩⟩ :=
    exists_carryOut_of_completed (by rw [hothers]) h
  · rw [hdry] at hreal
    cases hreal
  · obtain ⟨v₀, hsurveyed⟩ := hannounced.surveyed
    obtain ⟨huntouched, -⟩ := hannounced.asking hdiscreet
    rw [hconfirm] at huntouched
    -- the confirmer has kept the tree, so what is stripped is what was scanned
    have hsame : u.tree = w.tree := huntouched.tree
    rcases carryOut_cases hothers hreal files.length (s.found w.tree files) u with
      ⟨counts, x, y, z, hcarries', hremoved, hreported, hquiet⟩ | ⟨e, z, hcarries', -⟩
    · rw [hcarries] at hcarries'
      cases hcarries'
      refine ⟨files, v₀, counts, hsurveyed, ?_, by rw [length_found]⟩
      have htree := stripFiles_of_removed hremoved
      rw [hsame] at htree
      rw [htree, hquiet.tree, hreported.others]
    · rw [hcarries] at hcarries'
      cases hcarries'

/-- **What a completed run has done.** It has stripped the files that held statements, one after the
other, in the order in which they were collected. No entry has appeared, gone or changed its kind,
no link points elsewhere, every other file has kept its bytes, and the totals are those of the
stripping. -/
theorem tree_of_completed (o : Options) (p : Palette) (c : Consent) (w : World)
    (hreal : o.dryRun = false) {summary : Summary} {w' : World}
    (h : (Setup.mk o p c.confirmer .none).run w = .ok (.completed summary) w') :
    ∃ files counts, collect o w.tree = .ok files ∧
      (∀ file ∈ files, w.tree.Readable (o.root.join file)) ∧
      let dirty := (files.map o.root.join).filter w.tree.hasStatements
      w.tree.stripFiles dirty = .ok (w'.tree, counts) ∧
      summary = ⟨files.length, dirty.length, counts.sum⟩ ∧
      w.tree.SameShape w'.tree ∧
      ∀ loc, (∀ path ∈ dirty, w.tree.resolve? path ≠ .ok loc) →
        w'.tree.get? loc = w.tree.get? loc := by
  obtain ⟨files, v, counts, hsurveyed, hstrip, hsummary⟩ :=
    exists_stripFiles_of_completed rfl c.discreet hreal h
  exact ⟨files, counts, hsurveyed.collected, hsurveyed.readable, hstrip, hsummary,
    FileTree.sameShape_stripFiles hstrip, fun loc hne => FileTree.get?_stripFiles_of_ne hstrip hne⟩

set_option maxRecDepth 10000 in
theorem tree_of_completed_linked :
    ∃ w', agreedHere.run (.start fileAndLinkTree none []) = .ok (.completed ⟨2, 2, 1⟩) w' ∧
      fileAndLinkTree.SameShape w'.tree := by
  obtain ⟨w', h⟩ : ∃ w',
      agreedHere.run (.start fileAndLinkTree none []) = .ok (.completed ⟨2, 2, 1⟩) w' :=
    ⟨_, eq_ok_of_result? (by decide +kernel)⟩
  obtain ⟨_, _, -, -, -, -, hshape, -⟩ :=
    tree_of_completed agreedHere.options agreedHere.palette (.fixed true) _ rfl h
  exact ⟨w', h, hshape⟩

/-! ## Runs that agree by themselves -/

/-- How a run that agrees by itself leaves the world when it is completed. -/
structure Completed (s : Setup) (files : List Path) (counts : List Nat) (w w' : World) : Prop where
  tree : w.tree.stripFiles (s.affected w.tree files) = .ok (w'.tree, counts)
  written : w'.sink.written = w.sink.written ++ Utf8.encode
    (s.announcement files.length (s.found w.tree files) ++
      String.join (List.zipWith (fun r n => Report.removed s.palette r.path n)
        (s.found w.tree files) counts) ++
      Report.finalSummary s.palette
        ⟨files.length, (s.affected w.tree files).length, counts.sum⟩ false)
  log : ∃ before after, w'.log = w.log ++ (before ++
      (List.zipWith (removalRecords s.options.root) (s.found w.tree files) counts).flatten ++
      after) ∧
    (∀ r ∈ before, r.level ≠ .warn) ∧ ∀ r ∈ after, r.level ≠ .warn

/-- A completed run, part by part: the scan, the report, the removal and the totals. -/
theorem Completed.of_parts {counts : List Nat} {u v x y : World} (hsurveyed : s.Surveyed files w u)
    (hannounced : u.Reported (s.announcement files.length (s.found w.tree files)) v)
    (hremoved : (s.asking files.length (s.found w.tree files) v).Removed s (s.found w.tree files)
      counts x)
    (hreported : x.Reported (Report.finalSummary s.palette
      ⟨files.length, (s.affected w.tree files).length, counts.sum⟩ false) y)
    (hquiet : y.Quiet w') : s.Completed files counts w w' where
  tree := by
    have hasking : (s.asking files.length (s.found w.tree files) v).tree = w.tree := by
      rw [asking, hannounced.others]
      exact hsurveyed.quiet.tree
    have htree := stripFiles_of_removed hremoved
    rw [hasking] at htree
    rw [htree, hquiet.tree, hreported.others]
  written := by
    have hasking : (s.asking files.length (s.found w.tree files) v).sink.written =
        w.sink.written ++ Utf8.encode (s.announcement files.length (s.found w.tree files)) := by
      rw [← hsurveyed.quiet.sink]
      exact hannounced.written
    rw [hquiet.sink, hreported.written, hremoved.written, hasking]
    simp only [Utf8.encode_append, List.append_assoc]
  log := by
    obtain ⟨before, hbefore, hcalm⟩ := hsurveyed.quiet.log
    obtain ⟨after, hafter, hcalm'⟩ := hquiet.log
    refine ⟨before, after, ?_, hcalm, hcalm'⟩
    have hasking : (s.asking files.length (s.found w.tree files) v).log = w.log ++ before := by
      rw [asking, hannounced.others]
      exact hbefore
    rw [hafter, hreported.others, hremoved.log, hasking]
    simp only [List.append_assoc]

/-- Once its files have been collected and can be read, a run that agrees by itself ends well. -/
theorem agreed_cases (hothers : s.others = .none) (hreal : s.options.dryRun = false)
    (hagrees : s.confirmer = .fixed true) (hroom : w.sink.room = none)
    (hcollect : collect s.options w.tree = .ok files)
    (hread : ∀ file ∈ files, w.tree.Readable (s.options.root.join file)) :
    (s.affected w.tree files = [] ∧ ∃ w', s.run w = .ok .nothingFound w' ∧ w'.tree = w.tree) ∨
      (s.affected w.tree files ≠ [] ∧ ∃ counts w',
        s.run w =
          .ok (.completed ⟨files.length, (s.affected w.tree files).length, counts.sum⟩) w' ∧
        s.Completed files counts w w') := by
  have hcourse := course (by rw [hothers]) w
  generalize hr : s.run w = r at hcourse
  have hsame : ∀ {files' v}, s.Surveyed files' w v → files' = files := by
    intro files' v hsurveyed
    have hcollect' := hsurveyed.collected
    rw [hcollect] at hcollect'
    cases hcollect'
    rfl
  cases hcourse with
  | uncollected hfails =>
    rw [hcollect] at hfails
    cases hfails
  | @unscanned files' file fault _ hcollect' hfile hbad =>
    rw [hcollect] at hcollect'
    cases hcollect'
    obtain ⟨text, htext⟩ := hread file hfile
    rw [hbad] at htext
    cases htext
  | nothingFound hsurveyed hnone hreported =>
    cases hsame hsurveyed
    refine .inl ⟨?_, _, rfl, ?_⟩
    · rw [← paths_found, hnone, List.map_nil]
    · rw [hreported.others]
      exact hsurveyed.quiet.tree
  -- a sink without a limit takes every line of the report
  | unreported _ _ hlimited => exact absurd hroom hlimited
  | dry hdry =>
    rw [hdry] at hreal
    cases hreal
  | unanswered _ _ hconfirm =>
    rw [hagrees] at hconfirm
    cases hconfirm
  | declined _ _ hconfirm =>
    rw [hagrees] at hconfirm
    cases hconfirm
  | @agreed files' v u _ hannounced hconfirm =>
    obtain ⟨v₀, hsurveyed, hannounced'⟩ := hannounced.reported
    cases hsame hsurveyed
    rw [hagrees] at hconfirm
    cases hconfirm
    have hroom' : v.sink.room = none := by rw [hannounced'.room, hsurveyed.quiet.sink, hroom]
    rcases carryOut_cases hothers hreal files.length (s.found w.tree files)
      (s.asking files.length (s.found w.tree files) v) with
      ⟨counts, x, y, z, hcarries, hremoved, hreported, hquiet⟩ | ⟨e, z, _, _, hlimited | hbad⟩
    · refine .inr ⟨?_, counts, z, by rw [hcarries, length_found], ?_⟩
      · rw [← paths_found]
        exact mt List.map_eq_nil_iff.mp hannounced.found
      · rw [length_found] at hreported
        exact .of_parts hsurveyed hannounced' hremoved hreported hquiet
    · exact absurd hroom' hlimited
    · -- every file that is removed from has been read by the scan
      obtain ⟨r, hr, hunreadable⟩ := hbad
      refine absurd (readable_of_mem_found hread hr) ?_
      rw [← hannounced.tree]
      exact hunreadable

/-- A run that agrees by itself and ends well has stripped the files that held statements, if there
were any. -/
theorem exists_stripFiles_of_agreed (hothers : s.others = .none) (hreal : s.options.dryRun = false)
    (hagrees : s.confirmer = .fixed true) (hroom : w.sink.room = none) {outcome : Outcome}
    (h : s.run w = .ok outcome w') :
    ∃ files counts, collect s.options w.tree = .ok files ∧
      (∀ file ∈ files, w.tree.Readable (s.options.root.join file)) ∧
      w.tree.stripFiles (s.affected w.tree files) = .ok (w'.tree, counts) := by
  rcases (course (by rw [hothers]) w).start with ⟨fault, v, -, hfails, -⟩ |
    ⟨files, file, fault, v, -, -, -, hfails, -⟩ | ⟨files, v, hsurveyed⟩
  · rw [h] at hfails
    cases hfails
  · rw [h] at hfails
    cases hfails
  · rcases agreed_cases hothers hreal hagrees hroom hsurveyed.collected hsurveyed.readable with
      ⟨hnone, u, hruns, htree⟩ | ⟨-, counts, u, hruns, hcompleted⟩
    · rw [h] at hruns
      cases hruns
      exact ⟨files, [], hsurveyed.collected, hsurveyed.readable, by rw [hnone, htree]; rfl⟩
    · rw [h] at hruns
      cases hruns
      exact ⟨files, counts, hsurveyed.collected, hsurveyed.readable, hcompleted.tree⟩

end Setup

end ConsoleSweep
