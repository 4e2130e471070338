import ConsoleSweep.Proofs.Collection.Described
import ConsoleSweep.Proofs.Glob.Crossings

/-!
# Patterns without a separator

A pattern without a separator is tied to the root, so it selects what lies directly in the root.
What could still lead further down are `**` and the classes of the pattern, which may match a
separator: without `**`, a path that is collected goes down through at most as many directories as
the classes can match separators (`components_of_slashless`). If they hold none it is one name.

`./` before such a pattern is dropped, and whether the files can be collected and which they are
does not depend on it.
-/

namespace ConsoleSweep

namespace Line

variable {text : List Char}

/-- A text without a separator is kept as it is once it is tied to the root. -/
theorem spelled_of_slashless (h : '/' ∉ text) : spelled true text = text := by
  have hbelow : ['/', '*', '*'].isSuffixOf text = false := by
    rw [← Bool.not_eq_true, List.isSuffixOf_iff_suffix]
    exact fun hends => h (hends.subset List.mem_cons_self)
  simp only [spelled, Bool.true_or, if_true, hbelow, Bool.false_eq_true, if_false]

/-- A text that is tied to the root and has no other separator is a line that selects. -/
theorem exists_glob_of_slashless (h : '/' ∉ text) {own : Option Line}
    (hread : read ('/' :: text) = .ok own) :
    ∃ glob, Glob.parse (trimmed text) = .ok glob ∧ own = some ⟨glob, true, false⟩ := by
  have hnone : '/' ∉ trimmed text := fun hmem => h ((prefix_trimmed text).subset hmem)
  have hline : trimmed ('/' :: text) = '/' :: trimmed text :=
    trimmed_cons (by decide) (by decide)
  have hmarks : unmarked ('/' :: trimmed text) = (false, true, trimmed text) := rfl
  have hfiles : dropTrailingSlash (trimmed text) = (false, trimmed text) :=
    dropTrailingSlash_of_getLast? fun hlast => hnone (List.mem_of_getLast? hlast)
  rw [← spelled_of_slashless hnone]
  exact exists_tokens_of_read (by simp) hline (by simp) hmarks hfiles hread

end Line

namespace Selection

variable {pattern pattern' : String} {globs : List String} {s : Selection}

theorem anchored_of_slashless (h : '/' ∉ pattern.toList) :
    anchored pattern.toList = '/' :: pattern.toList := by
  have hbare : bare pattern.toList = pattern.toList := by
    unfold bare
    rw [if_neg]
    rw [List.isPrefixOf_iff_prefix]
    exact fun hstart => h (hstart.subset (by simp))
  rw [anchored_eq, hbare, if_neg h]

theorem anchored_here (h : '/' ∉ pattern.toList) :
    anchored ("./" ++ pattern).toList = '/' :: pattern.toList := by
  have hbare : bare ("./" ++ pattern).toList = pattern.toList := by
    rw [String.toList_append]
    rfl
  rw [anchored_eq, hbare, if_neg h]

/-- Patterns that are the same line give the same selection, or none. -/
theorem build_congr (h : anchored pattern.toList = anchored pattern'.toList) :
    build pattern globs = .ok s ↔ build pattern' globs = .ok s := by
  rw [build_eq_ok_iff, build_eq_ok_iff, texts, texts, h]

end Selection

namespace Collection

open Selection (anchored)

variable {o : Options} {tree : FileTree} {files : List Path} {pattern pattern' : String}

/-- Patterns that are the same line collect the same files. -/
theorem collect_congr_pattern (h : anchored pattern.toList = anchored pattern'.toList) :
    collect (o.withPattern pattern) tree = .ok files ↔
      collect (o.withPattern pattern') tree = .ok files := by
  have hbuild : ∀ s, Selection.ofOptions (o.withPattern pattern) = .ok s ↔
      Selection.ofOptions (o.withPattern pattern') = .ok s :=
    fun s => Selection.build_congr h
  rw [collect_eq_ok_iff_among, collect_eq_ok_iff_among]
  simp only [hbuild]
  rfl

/-- A path through names has a separator between any two of them. -/
theorem length_eq_count_slash {rel : List Name} (hne : rel ≠ []) (hnamed : Location.Named rel) :
    rel.length = (Path.ofNames rel).bytes.count slash + 1 := by
  rw [← length_partsAt, Path.partsAt_ofNames hne hnamed]

/-- All that is collected matches a pattern without a separator, as a path from the root. -/
theorem exists_glob_of_collect {text : List Char} (h : collect o tree = .ok files)
    (hpattern : anchored o.pattern.toList = '/' :: text) (hslash : '/' ∉ text) :
    ∃ glob, Glob.parse (Line.trimmed text) = .ok glob ∧
      ∀ file ∈ files, ∃ rel, rel ≠ [] ∧ Location.Named rel ∧ file = .ofNames rel ∧
        Glob.accepts glob (seenBelow o.root rel) = true := by
  obtain ⟨loc, s, hloc, hs, hmembers⟩ := exists_member_of_collect h
  obtain ⟨own, exclusions, hlayout⟩ := Selection.exists_layout hs
  have hread := hlayout.read
  rw [hpattern] at hread
  obtain ⟨glob, hparse, rfl⟩ := Line.exists_glob_of_slashless hslash hread
  refine ⟨glob, hparse, fun file hfile => ?_⟩
  obtain ⟨rel, node, hmember, rfl⟩ := hmembers file hfile
  have hrel := FileTree.named_of_mem_below hmember.there
  have hmem : (⟨glob, true, false⟩ : Line) ∈ s.lines := by
    rw [hlayout.lines]
    exact List.mem_cons_self
  have hselected := selected_of_admits ⟨_, hmem, rfl⟩ hmember.admits
  rw [candidate_ofNames (FileTree.ne_nil_of_resolve? hloc) hrel] at hselected
  obtain ⟨line, hline, -, happlies, -⟩ := hlayout.verdict_eq_selected_iff.mp hselected
  cases hline
  exact ⟨rel, (FileTree.mem_below_iff.mp hmember.there).1, hrel, rfl, happlies⟩

/-- **A pattern without a separator stays at the root.** If it has no `**` either, a path that is
collected goes down through no more directories than its classes can match separators, and is one
name if they can match none. `./` before the pattern changes nothing. -/
theorem components_of_slashless (hslash : '/' ∉ pattern.toList)
    (hstars : ¬ ['*', '*'] <:+: pattern.toList) :
    (∀ files, collect (o.withPattern ("./" ++ pattern)) tree = .ok files ↔
      collect (o.withPattern pattern) tree = .ok files) ∧
    ∀ files, collect (o.withPattern pattern) tree = .ok files →
      ∃ glob, Glob.parse (Line.trimmed pattern.toList) = .ok glob ∧
        (∀ file ∈ files, 1 ≤ file.components.length ∧
          file.components.length ≤ 1 + Glob.crossings glob) ∧
        (Glob.crossings glob = 0 → ∀ file ∈ files, file.components.length = 1) := by
  have hanchored := Selection.anchored_of_slashless hslash
  constructor
  · intro files
    exact collect_congr_pattern ((Selection.anchored_here hslash).trans hanchored.symm)
  · intro files h
    obtain ⟨glob, hparse, hmatched⟩ := exists_glob_of_collect h hanchored hslash
    have htrimmed := Line.prefix_trimmed pattern.toList
    have hshallow := Glob.shallow_of_parse (fun hmem => hslash (htrimmed.subset hmem))
      (fun hpair => hstars (hpair.trans htrimmed.isInfix)) hparse
    have hbound : ∀ file ∈ files, 1 ≤ file.components.length ∧
        file.components.length ≤ 1 + Glob.crossings glob := by
      intro file hfile
      obtain ⟨rel, hne, hrel, rfl, haccepts⟩ := hmatched file hfile
      have hcount := Glob.count_le_of_accepts hshallow haccepts
      rw [seenBelow, List.count_append] at hcount
      have hlength := length_eq_count_slash hne hrel
      rw [Path.components_ofNames hrel]
      omega
    refine ⟨glob, hparse, hbound, fun hnone file hfile => ?_⟩
    obtain ⟨hpos, hle⟩ := hbound file hfile
    omega

/-- A pattern with a class, a choice and a star that stays within names. -/
theorem components_of_slashless_choice :
    collect (lookingFor "./[a-c]*.\x7bjs,ts\x7d") sourceTree = .ok [.ofString "a.js"] ∧
      (Path.ofString "a.js").components.length = 1 := by
  have hcollect : collect (lookingFor "./[a-c]*.\x7bjs,ts\x7d") sourceTree =
      .ok [.ofString "a.js"] := by
    decide +kernel
  obtain ⟨hhere, hdepth⟩ := @components_of_slashless (.ofRoot (.ofString ".")) sourceTree
    "[a-c]*.\x7bjs,ts\x7d" (by decide +kernel) (by decide +kernel)
  obtain ⟨glob, hparse, -, hone⟩ := hdepth _ ((hhere _).mp hcollect)
  have hread : Glob.parse (Line.trimmed "[a-c]*.\x7bjs,ts\x7d".toList) =
      .ok [.oneOf false [('a', 'c')], .run, .literal '.',
        .choice [[.literal 'j', .literal 's'], [.literal 't', .literal 's']]] := by
    rfl
  cases hparse.symm.trans hread
  exact ⟨hcollect, hone (by decide +kernel) _ List.mem_cons_self⟩

/-- A class that only leaves out a character matches a separator, and a file below a directory is
collected with a pattern that has none. -/
theorem class_leads_below :
    ¬ ∀ (o : Options) (tree : FileTree) (pattern : String) (files : List Path),
      '/' ∉ pattern.toList → ¬ ['*', '*'] <:+: pattern.toList →
      collect (o.withPattern pattern) tree = .ok files →
      ∀ file ∈ files, file.components.length = 1 := by
  intro h
  have hcollect : collect (lookingFor "src[!x]b.js") sourceTree = .ok [.ofString "src/b.js"] := by
    decide +kernel
  have hone := h (.ofRoot (.ofString ".")) sourceTree "src[!x]b.js" _ (by decide +kernel)
    (by decide +kernel) hcollect _ List.mem_cons_self
  exact absurd hone (by decide +kernel)

end Collection

end ConsoleSweep
