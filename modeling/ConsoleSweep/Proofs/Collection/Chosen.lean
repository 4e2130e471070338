import ConsoleSweep.FileTree.Edit
import ConsoleSweep.Proofs.Collection.Candidate
import ConsoleSweep.Proofs.Collection.Members
import ConsoleSweep.Proofs.Selection.Mentions

/-!
# Just what is chosen is collected

Which files a run collects is said here one path at a time, with no walk and no verdict: `Chosen` is
about what is at the path, what the file pattern and the exclusions say about it, and the
directories on the way to it. `mem_collect_iff` says that just the chosen paths are collected, below
every root but one: a root that is the name of standard input has nothing below it.

The selection is not asked about the path below the root alone, if the root is spelled with `./`
twice, but about that with the `lead` of the root in front.
-/

namespace ConsoleSweep.Collection

open Line (mentions)
open Selection (anchored Spared)

variable {o : Options} {tree : FileTree} {loc : Location} {s : Selection} {root : Path}
  {rel dir : List Name} {node : Node}

/-! ## What the selection admits -/

section Admits

variable (hs : Selection.ofOptions o = .ok s)
  (hbang : (anchored o.pattern.toList).head? ≠ some '!')
  (hhash : (anchored o.pattern.toList).head? ≠ some '#') {seen : Bytes}
  (hseen : candidate root (root.join (.ofNames rel)) = seen)

include hs hbang hhash hseen

/-- A file is admitted if the pattern matches it and it is spared. -/
theorem admits_file_iff : admits s root rel false = true ↔
    mentions (anchored o.pattern.toList) seen false = true ∧ Spared o seen false := by
  rw [admits, hseen, Selection.verdict_of_unmarked hs hbang hhash]
  by_cases hspared : Spared o seen false
  · by_cases hmatched : mentions (anchored o.pattern.toList) seen false = true <;>
      simp [hspared, hmatched]
  · simp [hspared]

/-- A directory is admitted if it is spared, and is not hidden or the pattern matches it. -/
theorem admits_dir_iff : admits s root rel true = true ↔ Spared o seen true ∧
    ((rel.getLastD []).head? ≠ some dot ∨
      mentions (anchored o.pattern.toList) seen true = true) := by
  rw [admits, hseen, Selection.verdict_of_unmarked hs hbang hhash, ← isHidden_eq_false_iff]
  by_cases hspared : Spared o seen true
  · by_cases hmatched : mentions (anchored o.pattern.toList) seen true = true <;>
      simp [hspared, hmatched]
  · simp [hspared]

end Admits

/-! ## What is collected -/

/-- The names that lead from the root to a path that is to be collected. -/
structure Chosen (o : Options) (tree : FileTree) (loc : Location) (rel : List Name) : Prop where
  /-- A file is there, or a link that leads to one. -/
  file : (∃ data, tree.get? (loc ++ rel) = some (.file data)) ∨
    (∃ target, tree.get? (loc ++ rel) = some (.link target)) ∧
      tree.isFile (o.root.join (.ofNames rel)) = true
  /-- The file pattern matches it. -/
  matched : mentions (anchored o.pattern.toList) (seenBelow o.root rel) false = true
  /-- No exclusion glob matches it. -/
  spared : ∀ glob ∈ o.excludeGlobs, mentions glob.toList (seenBelow o.root rel) false = false
  /-- Whatever is on the way to it is a directory, neither an exclusion glob nor a twin matches it,
  and its name does not start with a dot or the file pattern matches it too. -/
  below : ∀ dir, dir ≠ [] → dir <+: rel → dir ≠ rel → tree.get? (loc ++ dir) = some .dir ∧
    Spared o (seenBelow o.root dir) true ∧
    ((dir.getLastD []).head? ≠ some dot ∨
      mentions (anchored o.pattern.toList) (seenBelow o.root dir) true = true)

/-- Whatever is chosen is a file or a link below the root. -/
theorem Chosen.exists_node (h : Chosen o tree loc rel) (hdir : tree.get? loc = some .dir) :
    ∃ node, (rel, node) ∈ tree.below loc ∧ ((∃ data, node = .file data) ∨
      (∃ target, node = .link target) ∧ tree.isFile (o.root.join (.ofNames rel)) = true) := by
  have hne : rel ≠ [] := by
    rintro rfl
    have hfile := h.file
    rw [List.append_nil, hdir] at hfile
    simp at hfile
  rcases h.file with ⟨data, hget⟩ | ⟨⟨target, hget⟩, hleads⟩
  · exact ⟨_, FileTree.mem_below_iff.mpr ⟨hne, hget⟩, .inl ⟨data, rfl⟩⟩
  · exact ⟨_, FileTree.mem_below_iff.mpr ⟨hne, hget⟩, .inr ⟨⟨target, rfl⟩, hleads⟩⟩

section Run

variable {files : List Path}
  (hbang : (anchored o.pattern.toList).head? ≠ some '!')
  (hhash : (anchored o.pattern.toList).head? ≠ some '#')

include hbang hhash

/-- The members of a collection are the chosen paths. -/
theorem exists_member_iff (hs : Selection.ofOptions o = .ok s) (hdir : tree.get? loc = some .dir)
    (hroot : o.root.bytes ≠ []) (rel : List Name) :
    (∃ node, Member s tree o.root (tree.below loc) rel node) ↔ Chosen o tree loc rel := by
  have hway : ∀ {dir}, Location.Named rel → dir <+: rel →
      (admits s o.root dir true = true ↔ Spared o (seenBelow o.root dir) true ∧
        ((dir.getLastD []).head? ≠ some dot ∨
          mentions (anchored o.pattern.toList) (seenBelow o.root dir) true = true)) :=
    fun hrel hstart =>
      admits_dir_iff hs hbang hhash (candidate_ofNames hroot (hrel.of_isPrefix hstart))
  constructor
  · rintro ⟨node, hmember⟩
    have hrel := FileTree.named_of_mem_below hmember.there
    obtain ⟨-, hget⟩ := FileTree.mem_below_iff.mp hmember.there
    obtain ⟨hadmits, hkind⟩ := collects_iff.mp hmember.collects
    obtain ⟨hmatched, hspared⟩ :=
      (admits_file_iff hs hbang hhash (candidate_ofNames hroot hrel)).mp hadmits
    refine ⟨?_, hmatched, Selection.spared_file_iff.mp hspared, fun dir hne hstart hproper => ?_⟩
    · rcases hkind with ⟨data, rfl⟩ | ⟨⟨target, rfl⟩, hleads⟩
      · exact .inl ⟨data, hget⟩
      · exact .inr ⟨⟨target, hget⟩, hleads⟩
    · obtain ⟨hthere, hentered⟩ := reached_iff.mp hmember.reached dir hne hstart hproper
      exact ⟨hthere, (hway hrel hstart).mp hentered⟩
  · intro h
    obtain ⟨node, hthere, hkind⟩ := h.exists_node hdir
    have hrel := FileTree.named_of_mem_below hthere
    have hadmits := (admits_file_iff hs hbang hhash (candidate_ofNames hroot hrel)).mpr
      ⟨h.matched, Selection.spared_file_iff.mpr h.spared⟩
    refine ⟨node, hthere, reached_iff.mpr fun dir hne hstart hproper => ?_,
      collects_iff.mpr ⟨hadmits, hkind⟩⟩
    obtain ⟨hget, hentered⟩ := h.below dir hne hstart hproper
    exact ⟨hget, (hway hrel hstart).mpr hentered⟩

/-- **Just what is chosen is collected**, unless the root is the name of standard input. Unless it
is spelled with `./` twice, what the selection sees of a path is that path. -/
theorem mem_collect_iff (h : collect o tree = .ok files) :
    ∃ loc, tree.resolve? o.root = .ok loc ∧ tree.get? loc = some .dir ∧
      (¬ TwiceHere o.root → ∀ rel, seenBelow o.root rel = (Path.ofNames rel).bytes) ∧
      ∀ p, p ∈ files ↔ o.root.components ≠ [standardInput] ∧
        ∃ rel, p = .ofNames rel ∧ Chosen o tree loc rel := by
  obtain ⟨loc, s, hloc, hdir, hs, hfiles⟩ := collect_eq_ok_iff_among.mp h
  have hseen : ¬ TwiceHere o.root → ∀ rel, seenBelow o.root rel = (Path.ofNames rel).bytes := by
    intro honce rel
    rw [seenBelow, lead_eq_nil_iff.mpr honce, List.nil_append]
  refine ⟨loc, hloc, hdir, hseen, fun p => ?_⟩
  have hroot := FileTree.ne_nil_of_resolve? hloc
  have hmember := exists_member_iff hbang hhash hs hdir hroot
  rcases hfiles with ⟨hinput, rfl⟩ | ⟨hinput, hamong⟩
  · simp [hinput]
  · rw [mem_iff_of_among hamong, and_iff_right hinput]
    constructor
    · rintro ⟨rel, node, hrel, rfl⟩
      exact ⟨rel, rfl, (hmember rel).mp ⟨node, hrel⟩⟩
    · rintro ⟨rel, rfl, hchosen⟩
      obtain ⟨node, hrel⟩ := (hmember rel).mpr hchosen
      exact ⟨rel, node, hrel, rfl⟩

end Run

/-- A tree with a link to a file, and files below a hidden and an excluded directory. -/
def hiddenAndExcludedTree : FileTree := FileTree.empty.attemptAll
  [.file (.ofString "src/a.js") [], .link (.ofString "b.js") (Utf8.encode "src/a.js"),
    .file (.ofString ".git/c.js") [], .file (.ofString "dist/d.js") []]

/-- The link is chosen, and nothing below the other two directories is. -/
theorem mem_collect_iff_linked :
    Chosen (.ofRoot (.ofString ".")) hiddenAndExcludedTree [] [Utf8.encode "b.js"] ∧
      ¬ Chosen (.ofRoot (.ofString ".")) hiddenAndExcludedTree []
        [Utf8.encode ".git", Utf8.encode "c.js"] ∧
      ¬ Chosen (.ofRoot (.ofString ".")) hiddenAndExcludedTree []
        [Utf8.encode "dist", Utf8.encode "d.js"] := by
  have hcollect : collect (.ofRoot (.ofString ".")) hiddenAndExcludedTree =
      .ok [.ofString "b.js", .ofString "src/a.js"] := by
    decide +kernel
  obtain ⟨loc, hloc, hdir, -, hmem⟩ :=
    mem_collect_iff (by decide +kernel) (by decide +kernel) hcollect
  have hroot : hiddenAndExcludedTree.resolve? (.ofString ".") = .ok [] := by decide +kernel
  cases hloc.symm.trans hroot
  have hinput : (Options.ofRoot (.ofString ".")).root.components ≠ [standardInput] := by
    decide +kernel
  have hout : ∀ rel, Path.ofNames rel ∉ [Path.ofString "b.js", .ofString "src/a.js"] →
      ¬ Chosen (.ofRoot (.ofString ".")) hiddenAndExcludedTree [] rel :=
    fun rel hfile hchosen => hfile ((hmem _).mpr ⟨hinput, rel, rfl, hchosen⟩)
  refine ⟨?_, hout _ (by decide +kernel), hout _ (by decide +kernel)⟩
  obtain ⟨-, rel, hrel, hchosen⟩ := (hmem (.ofString "b.js")).mp List.mem_cons_self
  obtain ⟨node, hthere, -⟩ := hchosen.exists_node hdir
  have hne : rel ≠ [] := (FileTree.mem_below_iff.mp hthere).1
  have hparts := Path.partsAt_ofNames hne (FileTree.named_of_mem_below hthere)
  rw [← hrel] at hparts
  have hname : partsAt slash (Path.ofString "b.js").bytes = [Utf8.encode "b.js"] := by
    decide +kernel
  rwa [hname.symm.trans hparts]

/-- A file that everything speaks for is not collected. -/
theorem standard_input_overlooked :
    ¬ ∀ (o : Options) (tree : FileTree) (files : List Path) (loc : Location),
      (anchored o.pattern.toList).head? ≠ some '!' → (anchored o.pattern.toList).head? ≠ some '#' →
      tree.resolve? o.root = .ok loc → collect o tree = .ok files →
      ∀ rel, Path.ofNames rel ∈ files ↔ Chosen o tree loc rel := by
  intro h
  have hchosen : Chosen (.ofRoot (.ofString "-")) dashTree [standardInput]
      [Utf8.encode "a.js"] := by
    refine ⟨.inl ⟨[], by decide +kernel⟩, by decide +kernel, by decide +kernel, ?_⟩
    intro dir hne hstart hproper
    have hlength := hstart.length_le.lt_of_ne fun heq => hproper (hstart.eq_of_length heq)
    exact absurd (List.length_pos_iff.mpr hne) (by simpa using hlength)
  have hmem := (h _ dashTree [] [standardInput] (by decide +kernel) (by decide +kernel)
    (by decide +kernel) collect_dash _).mpr hchosen
  cases hmem

end ConsoleSweep.Collection
