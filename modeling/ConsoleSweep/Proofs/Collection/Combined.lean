import Mathlib.Order.Basic
import ConsoleSweep.FileTree.Edit
import ConsoleSweep.Proofs.Collection.Candidate
import ConsoleSweep.Proofs.Collection.Members
import ConsoleSweep.Proofs.Selection.Combined

/-!
# Exclusions combine as intersection

Exclusions given together leave what is left by each: a run with the exclusions of two others
collects the files that both of them collect (`collect_combined`). A directory is entered if both
enter it, so a file is reached if both reach it, though the two may fail to enter different
directories on the way to it. From this follows all there is to say about the order of exclusions,
about repeating them and about giving them a few at a time (`exclusions_intersect`).
-/

namespace ConsoleSweep.Collection

open Options (Combines)
open Selection (Meets)

variable {o o₁ o₂ : Options} {tree : FileTree} {loc : Location} {s s₁ s₂ : Selection}
  {root : Path} {nodes : List (Location × Node)} {rel : List Name} {node : Node} {isDir : Bool}
  {files files₁ files₂ : List Path}

/-! ## What two selections admit -/

section Meets

variable (h : Meets s₁ s₂ s)

include h

theorem admits_meets :
    admits s root rel isDir = (admits s₁ root rel isDir && admits s₂ root rel isDir) := by
  unfold admits
  rcases h (candidate root (root.join (.ofNames rel))) isDir with
    ⟨hrejects, hrejects₁ | hrejects₂⟩ | ⟨hagrees₁, hagrees₂⟩
  · rw [hrejects, hrejects₁, Bool.false_and]
  · rw [hrejects, hrejects₂, Bool.and_false]
  · rw [hagrees₁, hagrees₂, Bool.and_self]

theorem collects_meets : collects s tree root rel node =
    (collects s₁ tree root rel node && collects s₂ tree root rel node) := by
  cases node with
  | dir => rfl
  | file data => exact admits_meets h
  | link target =>
    unfold collects
    dsimp only
    rw [admits_meets h]
    ac_rfl

theorem reached_meets : reached s root nodes rel =
    (reached s₁ root nodes rel && reached s₂ root nodes rel) := by
  rw [Bool.eq_iff_iff, Bool.and_eq_true]
  simp only [reached, entered, admits_meets h, List.all_eq_true, Bool.and_eq_true,
    ← forall₂_and]
  exact forall₂_congr fun dir _ => and_and_left

theorem tooLong_of_meets (hlong : tooLong s root rel node = true) :
    tooLong s₁ root rel node = true := by
  unfold tooLong at hlong ⊢
  rw [admits_meets h] at hlong
  simp only [Bool.and_eq_true] at hlong ⊢
  exact ⟨⟨hlong.1.1, hlong.1.2.1⟩, hlong.2⟩

end Meets

/-! ## What two runs collect -/

/-- A path is collected if what is there is reached and collected, since no other path below the
root is spelled the same. -/
theorem ofNames_mem_iff (h : among s tree root (tree.below loc) = ⟨files, none⟩)
    (hthere : (rel, node) ∈ tree.below loc) : Path.ofNames rel ∈ files ↔
      (reached s root (tree.below loc) rel && collects s tree root rel node) = true := by
  rw [mem_iff_of_among h, Bool.and_eq_true]
  constructor
  · rintro ⟨rel', node', hmember, hspelled⟩
    have hrel : rel = rel' := by
      rw [← Path.components_ofNames (FileTree.named_of_mem_below hthere), hspelled,
        Path.components_ofNames (FileTree.named_of_mem_below hmember.there)]
    subst hrel
    have hnode : node = node' := Option.some.inj
      ((FileTree.mem_below_iff.mp hthere).2.symm.trans
        (FileTree.mem_below_iff.mp hmember.there).2)
    subst hnode
    exact ⟨hmember.reached, hmember.collects⟩
  · rintro ⟨hreached, hcollects⟩
    exact ⟨rel, node, ⟨hthere, hreached, hcollects⟩, rfl⟩

/-- If neither of two collections is stopped, then one that rejects what either rejects is not, and
it holds what both hold. -/
theorem among_meets (hmeets : Meets s₁ s₂ s)
    (h₁ : among s₁ tree root (tree.below loc) = ⟨files₁, none⟩)
    (h₂ : among s₂ tree root (tree.below loc) = ⟨files₂, none⟩) :
    among s tree root (tree.below loc) = ⟨files₁.filter (· ∈ files₂), none⟩ := by
  obtain ⟨hlisted, rfl⟩ := among_eq_iff.mp h₁
  refine among_eq_iff.mpr ⟨fun e he hreached => ?_, ?_⟩
  · rw [reached_meets hmeets, Bool.and_eq_true] at hreached
    have hshort := hlisted e he hreached.1
    rw [← Bool.not_eq_true] at hshort ⊢
    exact mt (tooLong_of_meets hmeets) hshort
  · rw [List.filter_map, List.filter_filter]
    congr 1
    refine List.filter_congr fun e he => ?_
    have hboth : decide (Path.ofNames e.1 ∈ files₂) =
        (reached s₂ root (tree.below loc) e.1 && collects s₂ tree root e.1 e.2) := by
      rw [Bool.eq_iff_iff, decide_eq_true_iff]
      exact ofNames_mem_iff h₂ he
    rw [Function.comp_apply, hboth, reached_meets hmeets, collects_meets hmeets]
    ac_rfl

/-- **A run with the exclusions of two others** collects the files that both collect, in order. -/
theorem collect_combined (h : Combines o₁ o₂ o) (h₁ : collect o₁ tree = .ok files₁)
    (h₂ : collect o₂ tree = .ok files₂) : collect o tree = .ok (files₁.filter (· ∈ files₂)) := by
  obtain ⟨loc, s₁, hloc, hdir, hs₁, hfiles₁⟩ := collect_eq_ok_iff_among.mp h₁
  obtain ⟨loc', s₂, hloc', -, hs₂, hfiles₂⟩ := collect_eq_ok_iff_among.mp h₂
  rw [h.root₁] at hloc hfiles₁
  rw [h.root₂] at hloc' hfiles₂
  cases hloc.symm.trans hloc'
  obtain ⟨s, hs, hmeets⟩ := Selection.exists_meets h hs₁ hs₂
  refine collect_eq_ok_iff_among.mpr ⟨loc, s, hloc, hdir, hs, ?_⟩
  rcases hfiles₁ with ⟨hinput, rfl⟩ | ⟨hbelow, hamong₁⟩
  · exact .inl ⟨hinput, rfl⟩
  · obtain ⟨-, hamong₂⟩ := hfiles₂.resolve_left fun hinput => hbelow hinput.1
    exact .inr ⟨hbelow, among_meets hmeets hamong₁ hamong₂⟩

/-- Exclusions with the same names leave the same files. -/
theorem collect_of_same_exclusions {o o' : Options} (hroot : o.root = o'.root)
    (hpattern : o.pattern = o'.pattern)
    (hexclude : ∀ given, given ∈ o.exclude ↔ given ∈ o'.exclude)
    (h : collect o tree = .ok files) : collect o' tree = .ok files := by
  have hcombines : Combines o o o' :=
    ⟨hroot, hroot, hpattern, hpattern, fun given => by rw [hexclude, or_self]⟩
  have hall : files.filter (· ∈ files) = files :=
    List.filter_eq_self.mpr fun _ hfile => decide_eq_true hfile
  rw [collect_combined hcombines h h, hall]

/-! ## Exclusions given in several steps -/

/-- Adding exclusions in several steps is adding them all at once. -/
theorem foldl_withExcludes (o : Options) (groups : List (List String)) :
    groups.foldl Options.withExcludes o = o.withExcludes groups.flatten := by
  induction groups generalizing o with
  | nil => simp [Options.withExcludes]
  | cons names rest ih => simp [ih, Options.withExcludes]

/-- **Exclusions combine as intersection.** With the names of two lists together a run collects, in
order, the files that it collects with each of the two. So it does not matter in which order names
are given, how often, and how many at a time; and with more names no more files are collected. -/
theorem exclusions_intersect (o : Options) (tree : FileTree) :
    (∀ names names' files files', collect (o.withExcludes names) tree = .ok files →
      collect (o.withExcludes names') tree = .ok files' →
      collect (o.withExcludes (names ++ names')) tree = .ok (files.filter (· ∈ files'))) ∧
    (∀ groups groups' : List (List String),
      (∀ name, name ∈ groups.flatten ↔ name ∈ groups'.flatten) →
      (collect (groups.foldl Options.withExcludes o) tree).toOption =
        (collect (groups'.foldl Options.withExcludes o) tree).toOption) ∧
    ∀ names names' files files', collect (o.withExcludes names) tree = .ok files →
      collect (o.withExcludes (names ++ names')) tree = .ok files' → files'.Sublist files := by
  refine ⟨?together, ?regrouped, ?fewer⟩
  case together =>
    intro names names' files files' h h'
    have hcombines : Combines (o.withExcludes names) (o.withExcludes names')
        (o.withExcludes (names ++ names')) := by
      refine ⟨rfl, rfl, rfl, rfl, fun given => ?_⟩
      simp only [Options.withExcludes, List.mem_append]
      exact or_or_distrib_left
    exact collect_combined hcombines h h'
  case regrouped =>
    intro groups groups' hsame
    rw [foldl_withExcludes, foldl_withExcludes]
    have hexclude : ∀ given, given ∈ (o.withExcludes groups.flatten).exclude ↔
        given ∈ (o.withExcludes groups'.flatten).exclude := by
      simp only [Options.withExcludes, List.mem_append, hsame, implies_true]
    have hiff : ∀ files, collect (o.withExcludes groups.flatten) tree = .ok files ↔
        collect (o.withExcludes groups'.flatten) tree = .ok files := fun files =>
      ⟨collect_of_same_exclusions rfl rfl hexclude,
        collect_of_same_exclusions rfl rfl fun given => (hexclude given).symm⟩
    cases hcollect : collect (o.withExcludes groups.flatten) tree with
    | ok files => rw [(hiff files).mp hcollect]
    | error fault =>
      cases hcollect' : collect (o.withExcludes groups'.flatten) tree with
      | ok files => cases hcollect.symm.trans ((hiff files).mpr hcollect')
      | error fault' => rfl
  case fewer =>
    intro names names' files files' h h'
    have hcombines : Combines (o.withExcludes names) (o.withExcludes (names ++ names'))
        (o.withExcludes (names ++ names')) := by
      refine ⟨rfl, rfl, rfl, rfl, fun given => (or_iff_right_of_imp fun hgiven => ?_).symm⟩
      rw [Options.withExcludes, ← List.append_assoc]
      exact List.mem_append_left _ hgiven
    rw [Except.ok.inj (h'.symm.trans (collect_combined hcombines h h'))]
    exact List.filter_sublist

/-- A tree in which two exclusions leave out a file at different depths. -/
def layeredTree : FileTree := FileTree.empty.attemptAll
  [.file (.ofString "gen/a.js") [], .file (.ofString "lib/b.js") [],
    .file (.ofString "lib/gen/c.js") [], .file (.ofString "src/d.js") []]

theorem exclusions_intersect_layered :
    collect ((Options.ofRoot (.ofString ".")).withExcludes [" lib/", "g*n"]) layeredTree =
      .ok [.ofString "src/d.js"] ∧
    (collect ([["g*n"], ["", "lib", "g*n"]].foldl Options.withExcludes (.ofRoot (.ofString ".")))
      layeredTree).toOption =
      (collect ([["lib", "g*n"], [""]].foldl Options.withExcludes (.ofRoot (.ofString ".")))
        layeredTree).toOption ∧
    [Path.ofString "src/d.js"].Sublist [.ofString "gen/a.js", .ofString "src/d.js"] := by
  have hlib : collect ((Options.ofRoot (.ofString ".")).withExcludes [" lib/"]) layeredTree =
      .ok [.ofString "gen/a.js", .ofString "src/d.js"] := by
    decide +kernel
  have hgen : collect ((Options.ofRoot (.ofString ".")).withExcludes ["g*n"]) layeredTree =
      .ok [.ofString "lib/b.js", .ofString "src/d.js"] := by
    decide +kernel
  have hcommon : [Path.ofString "gen/a.js", .ofString "src/d.js"].filter
      (· ∈ [Path.ofString "lib/b.js", .ofString "src/d.js"]) = [.ofString "src/d.js"] := by
    decide +kernel
  have hsame : ∀ name, name ∈ [["g*n"], ["", "lib", "g*n"]].flatten ↔
      name ∈ [["lib", "g*n"], [""]].flatten := by
    intro name
    simp [or_comm, or_left_comm]
  obtain ⟨htogether, hregrouped, hfewer⟩ :=
    exclusions_intersect (.ofRoot (.ofString ".")) layeredTree
  have hboth := htogether [" lib/"] ["g*n"] _ _ hlib hgen
  rw [hcommon] at hboth
  exact ⟨hboth, hregrouped _ _ hsame, hfewer [" lib/"] ["g*n"] _ _ hlib hboth⟩

end ConsoleSweep.Collection
