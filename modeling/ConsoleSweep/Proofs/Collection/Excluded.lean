import ConsoleSweep.FileTree.Edit
import ConsoleSweep.Proofs.Collection.Candidate
import ConsoleSweep.Proofs.Collection.Members
import ConsoleSweep.Proofs.Selection.Excluding

/-!
# What one more exclusion removes

If the name of a directory is excluded as well, just the files below directories of that name are no
longer collected, and the others still are, in the same order (`collect_withExcludes`). A directory
of that name is not entered either, which loses nothing: all that is below it is rejected anyway
(`prefix_directories`).
-/

namespace ConsoleSweep.Collection

open Line (mentions)
open Options (IsPlain globFor)
open Selection (directories)

variable {s s' : Selection} {tree : FileTree} {root : Path} {nodes : List (Location × Node)}
  {rel dir : List Name} {node : Node} {isDir : Bool}

/-- All parts of a directory on the way to a path stand before the last part of that path. -/
theorem prefix_directories (hne : dir ≠ []) (hstart : dir <+: rel) (hproper : dir ≠ rel) :
    directories (seenBelow root dir) true <+: directories (seenBelow root rel) false := by
  obtain ⟨rest, rfl⟩ := hstart
  have hrest : rest ≠ [] := by
    rintro rfl
    exact hproper (List.append_nil dir).symm
  have hsplit : seenBelow root (dir ++ rest) =
      seenBelow root dir ++ slash :: (Path.ofNames rest).bytes := by
    rw [seenBelow, seenBelow, Path.ofNames, intercalate_append hne hrest, List.append_assoc]
    rfl
  simp only [directories, if_true, Bool.false_eq_true, if_false]
  rw [hsplit, partsAt_append_cons, List.dropLast_append_of_ne_nil (partsAt_ne_nil _ _)]
  exact List.prefix_append _ _

section Excluding

variable {parts : List Bytes} (hverdict : ∀ path isDir, s'.verdict path isDir =
  if parts <:+: directories path isDir then .rejected else s.verdict path isDir)
  (hroot : root.bytes ≠ [])

include hverdict hroot

/-- What is admitted is what was, unless the excluded name stands among its directories. -/
theorem admits_excluding (hnamed : Location.Named rel) : admits s' root rel isDir =
    (admits s root rel isDir && !decide (parts <:+: directories (seenBelow root rel) isDir)) := by
  unfold admits
  rw [hverdict, candidate_ofNames hroot hnamed]
  by_cases hbelow : parts <:+: directories (seenBelow root rel) isDir
  · rw [if_pos hbelow, decide_eq_true hbelow, Bool.not_true, Bool.and_false]
  · rw [if_neg hbelow, decide_eq_false hbelow, Bool.not_false, Bool.and_true]

theorem collects_excluding (hnamed : Location.Named rel) : collects s' tree root rel node =
    (collects s tree root rel node &&
      !decide (parts <:+: directories (seenBelow root rel) false)) := by
  cases node with
  | dir => rfl
  | file data => exact admits_excluding hverdict hroot hnamed
  | link target =>
    unfold collects
    dsimp only
    rw [admits_excluding hverdict hroot hnamed, Bool.and_right_comm]

/-- Nothing is entered that was not. -/
theorem entered_of_excluding (hnamed : Location.Named dir)
    (h : entered s' root nodes dir = true) : entered s root nodes dir = true := by
  rw [entered, Bool.and_eq_true] at h ⊢
  rw [admits_excluding hverdict hroot hnamed, Bool.and_eq_true] at h
  exact ⟨h.1, h.2.1⟩

theorem reached_of_excluding (hnamed : Location.Named rel)
    (h : reached s' root nodes rel = true) : reached s root nodes rel = true := by
  rw [reached, List.all_eq_true] at h ⊢
  intro dir hdir
  have hstart := (mem_ancestors_iff.mp hdir).2.1
  exact entered_of_excluding hverdict hroot (hnamed.of_isPrefix hstart) (h dir hdir)

/-- On the way to a path that the name does not stand among the directories of, all that was entered
still is. -/
theorem reached_excluding (hnamed : Location.Named rel)
    (hkept : ¬ parts <:+: directories (seenBelow root rel) false) :
    reached s' root nodes rel = reached s root nodes rel := by
  refine Bool.eq_iff_iff.mpr ⟨reached_of_excluding hverdict hroot hnamed, fun h => ?_⟩
  rw [reached, List.all_eq_true] at h ⊢
  intro dir hdir
  obtain ⟨hne, hstart, hproper⟩ := mem_ancestors_iff.mp hdir
  have hdir' : ¬ parts <:+: directories (seenBelow root dir) true := fun hbelow =>
    hkept (hbelow.trans (prefix_directories hne hstart hproper).isInfix)
  rw [entered, admits_excluding hverdict hroot (hnamed.of_isPrefix hstart), decide_eq_false hdir',
    Bool.not_false, Bool.and_true]
  exact h dir hdir

/-- **A collection** that is not stopped loses just the files that the name stands among the
directories of. -/
theorem among_excluding {loc : Location} {files : List Path}
    (h : among s tree root (tree.below loc) = ⟨files, none⟩) :
    among s' tree root (tree.below loc) =
      ⟨files.filter fun p => !decide (parts <:+: directories (lead root ++ p.bytes) false),
        none⟩ := by
  obtain ⟨hlisted, rfl⟩ := among_eq_iff.mp h
  refine among_eq_iff.mpr ⟨fun e he hreached => ?_, ?_⟩
  · have hnamed := FileTree.named_of_mem_below he
    have hshort := hlisted e he (reached_of_excluding hverdict hroot hnamed hreached)
    rw [← Bool.not_eq_true] at hshort ⊢
    refine fun hlong => hshort ?_
    unfold tooLong at hlong ⊢
    rw [admits_excluding hverdict hroot hnamed] at hlong
    simp only [Bool.and_eq_true] at hlong ⊢
    exact ⟨⟨hlong.1.1, hlong.1.2.1⟩, hlong.2⟩
  · rw [List.filter_map, List.filter_filter]
    congr 1
    refine List.filter_congr fun e he => ?_
    have hnamed := FileTree.named_of_mem_below he
    rw [collects_excluding hverdict hroot hnamed, Function.comp_apply]
    change (!decide (parts <:+: directories (seenBelow root e.1) false) && _) = _
    by_cases hbelow : parts <:+: directories (seenBelow root e.1) false
    · simp [hbelow]
    · rw [reached_excluding hverdict hroot hnamed hbelow, decide_eq_false hbelow]
      simp

end Excluding

/-! ## A run with one more exclusion -/

/-- The directories of a file below the root as the selection sees them. -/
def directoriesBelow (root file : Path) : List Bytes := directories (lead root ++ file.bytes) false

/-- They are those of its path, unless the root is spelled with `./` twice. -/
theorem directoriesBelow_ofNames (honce : ¬ TwiceHere root) (hne : rel ≠ [])
    (hnamed : Location.Named rel) :
    directoriesBelow root (.ofNames rel) = (Path.ofNames rel).components.dropLast := by
  rw [directoriesBelow, lead_eq_nil_iff.mpr honce, Path.components_ofNames hnamed, List.nil_append,
    directories, if_neg Bool.false_ne_true, Path.partsAt_ofNames hne hnamed]

/-- **One more exclusion removes just the files below directories of that name**, and the glob of
the name alone says which these are. -/
theorem collect_withExcludes {o : Options} {given : String} {files : List Path}
    (h : collect o tree = .ok files) (hplain : IsPlain given) :
    collect (o.withExcludes [given]) tree = .ok (files.filter fun p =>
      !decide (partsAt slash (Utf8.encode given) <:+: directoriesBelow o.root p)) ∧
    (¬ TwiceHere o.root → ∀ p ∈ files, directoriesBelow o.root p = p.components.dropLast) ∧
    ∀ p, mentions (globFor given.toList).toList (lead o.root ++ p.bytes) false = true ↔
      partsAt slash (Utf8.encode given) <:+: directoriesBelow o.root p := by
  obtain ⟨loc, s, hloc, hdir, hs, hfiles⟩ := collect_eq_ok_iff_among.mp h
  obtain ⟨s', hs', hverdict⟩ := Selection.exists_verdict_withExcludes hs hplain
  have hroot := FileTree.ne_nil_of_resolve? hloc
  refine ⟨?_, fun honce p hp => ?_, fun p => Selection.mentions_globFor_iff hplain⟩
  · refine collect_eq_ok_iff_among.mpr ⟨loc, s', hloc, hdir, hs', ?_⟩
    rcases hfiles with ⟨hinput, rfl⟩ | ⟨hinput, hamong⟩
    · exact .inl ⟨hinput, rfl⟩
    · exact .inr ⟨hinput, among_excluding hverdict hroot hamong⟩
  · obtain ⟨loc', s'', -, -, hmembers⟩ := exists_member_of_collect h
    obtain ⟨rel, node, hmember, rfl⟩ := hmembers p hp
    exact directoriesBelow_ofNames honce (FileTree.mem_below_iff.mp hmember.there).1
      (FileTree.named_of_mem_below hmember.there)

/-- A tree with a file and a directory of one name. -/
def namesakeTree : FileTree := FileTree.empty.attemptAll
  [.file (.ofString "src/a.js") [], .file (.ofString "src/a.jsx") [],
    .file (.ofString "lib/src/a.js/c.js") []]

/-- Below the directory the file is no longer collected, but the file of that name still is. -/
theorem collect_withExcludes_namesake :
    collect (.ofRoot (.ofString ".")) namesakeTree = .ok [.ofString "lib/src/a.js/c.js",
      .ofString "src/a.js", .ofString "src/a.jsx"] ∧
    collect ((Options.ofRoot (.ofString ".")).withExcludes ["src/a.js"]) namesakeTree =
      .ok [.ofString "src/a.js", .ofString "src/a.jsx"] := by
  have hcollect : collect (.ofRoot (.ofString ".")) namesakeTree =
      .ok [.ofString "lib/src/a.js/c.js", .ofString "src/a.js", .ofString "src/a.jsx"] := by
    decide +kernel
  have hplain : IsPlain "src/a.js" := by decide +kernel
  refine ⟨hcollect, (collect_withExcludes hcollect hplain).1.trans ?_⟩
  decide +kernel

/-- A tree with a directory to look below. -/
def shallowTree : FileTree := FileTree.empty.attemptAll [.file (.ofString "d/a.js") []]

/-- The name of the root itself is taken for that of a directory below it. -/
theorem root_taken_for_excluded :
    ¬ ∀ (o : Options) (tree : FileTree) (files : List Path) (given : String),
      collect o tree = .ok files → IsPlain given →
      collect (o.withExcludes [given]) tree = .ok (files.filter fun p =>
        !decide (partsAt slash (Utf8.encode given) <:+: p.components.dropLast)) := by
  intro h
  have hcollect : collect (.ofRoot (.ofString "././d")) shallowTree = .ok [.ofString "a.js"] := by
    decide +kernel
  have hplain : IsPlain "d" := by decide +kernel
  have hexcluded : collect ((Options.ofRoot (.ofString "././d")).withExcludes ["d"]) shallowTree =
      .ok [] := by
    decide +kernel
  have hkept := h _ shallowTree _ "d" hcollect hplain
  rw [hexcluded] at hkept
  exact absurd hkept (by decide +kernel)

end ConsoleSweep.Collection
