import ConsoleSweep.Proofs.Collection.Candidate
import ConsoleSweep.Proofs.Collection.Members
import ConsoleSweep.Proofs.Selection.Pattern

/-!
# Only files that match the pattern are collected

A file is collected if the selection selects it, and a selection whose pattern starts with no mark
selects only what the pattern describes as an ordinary glob. So `described_of_collect` holds of all
patterns but those that a mark turns into an exclusion or a comment; with one of these the selection
selects nothing and leaves all files in that no exclusion applies to.

The path that is matched is the one below the root, unless the root starts with `././`.
-/

namespace ConsoleSweep

open Glob (describes)
open Selection (bare unrooted Marked)

namespace Collection

/-- A file that has been collected is selected if the selection selects anything. -/
theorem selected_of_admits {s : Selection} {root : Path} {rel : List Name}
    (hselects : ∃ line ∈ s.lines, line.selects = true) (h : admits s root rel false = true) :
    s.verdict (candidate root (root.join (.ofNames rel))) false = .selected := by
  rcases admits_iff.mp h with hselected | ⟨hunmentioned, -⟩
  · exact hselected
  · obtain ⟨line, hline, hselects⟩ := hselects
    rcases (Selection.verdict_eq_unmentioned_iff.mp hunmentioned).2 with hdir | hnone
    · cases hdir
    · rw [hnone line hline] at hselects
      cases hselects

/-- **Only files that match the pattern are collected.** If the pattern starts with no mark, the
path of every file that is collected, as the selection sees it, is described by the pattern read as
an ordinary glob, one `/` at its start left out. Unless there was one, or the root is spelled with
`./` twice, that is to say that the pattern describes the path below the root. If the pattern starts
with a mark, the selection selects nothing, and does not mention what no exclusion applies to. -/
theorem described_of_collect {o : Options} {tree : FileTree} {files : List Path}
    (h : collect o tree = .ok files)
    (hend : ∀ c, o.pattern.toList.getLast? = some c → isBlank c = false) :
    (¬ Marked o.pattern.toList → ∀ file ∈ files,
      describes (unrooted (bare o.pattern.toList)) (candidate o.root (o.root.join file)) = true ∧
      (¬ TwiceHere o.root → (bare o.pattern.toList).head? ≠ some '/' →
        describes (bare o.pattern.toList) file.bytes = true)) ∧
    (Marked o.pattern.toList → ∀ s, Selection.ofOptions o = .ok s → ∀ path isDir,
      s.verdict path isDir ≠ .selected ∧
      (s.verdict path isDir = .unmentioned ↔
        ∀ line ∈ s.lines, line.applies path isDir = false)) := by
  obtain ⟨loc, s, hloc, hs, hmembers⟩ := exists_member_of_collect h
  obtain ⟨own, exclusions, hlayout⟩ := Selection.exists_layout hs
  constructor
  · intro hmark file hfile
    obtain ⟨rel, node, hmember, rfl⟩ := hmembers file hfile
    obtain ⟨line, rfl, hselects, hdescribes⟩ :=
      Selection.exists_line_of_pattern hmark hend hlayout.read
    have hmem : line ∈ s.lines := by
      rw [hlayout.lines]
      exact List.mem_cons_self
    have hselected := selected_of_admits ⟨line, hmem, hselects⟩ hmember.admits
    obtain ⟨line', hline', -, happlies, -⟩ := hlayout.verdict_eq_selected_iff.mp hselected
    cases hline'
    have hseen := hdescribes _ happlies
    refine ⟨hseen, fun honce hhead => ?_⟩
    -- the selection has seen the path below the root
    have hnames := Path.ofNames_of_named (FileTree.named_of_mem_below hmember.there)
    have hcandidate : candidate o.root (o.root.join (.ofNames rel)) = (Path.ofNames rel).bytes := by
      refine candidate_join (FileTree.ne_nil_of_resolve? hloc) (fun rest hrest => ?_) hnames.1
        hnames.2
      by_contra hne
      exact honce ⟨rest, hne, hrest⟩
    rwa [hcandidate, Selection.unrooted_of_head? hhead] at hseen
  · intro hmark s' hs' path isDir
    obtain ⟨own', exclusions', hlayout'⟩ := Selection.exists_layout hs'
    have hrejects := hlayout'.selects_of_marked hmark
    constructor
    · intro hselected
      obtain ⟨line, hfind, hselects⟩ := Selection.verdict_eq_selected_iff_find.mp hselected
      rw [hrejects line (List.mem_reverse.mp (List.mem_of_find?_eq_some hfind))] at hselects
      cases hselects
    · rw [Selection.verdict_eq_unmentioned_iff]
      exact and_iff_left (.inr hrejects)

/-- Files at the top and below a directory. -/
def sourceTree : FileTree := FileTree.empty.attemptAll
  [.file (.ofString "a.js") [], .file (.ofString "src/b.js") []]

/-- The options of a run in the current directory that looks for files of a pattern. -/
def lookingFor (pattern : String) : Options := (Options.ofRoot (.ofString ".")).withPattern pattern

theorem described_of_collect_below :
    collect (lookingFor "./src/**") sourceTree = .ok [.ofString "src/b.js"] ∧
      describes "src/**".toList (Utf8.encode "src/b.js") = true := by
  have hcollect : collect (lookingFor "./src/**") sourceTree = .ok [.ofString "src/b.js"] := by
    decide +kernel
  have hend : ∀ c, (lookingFor "./src/**").pattern.toList.getLast? = some c →
      isBlank c = false := by
    intro c hc
    cases hc
    rfl
  have hdescribed := (described_of_collect hcollect hend).1
    (by decide +kernel) _ List.mem_cons_self
  refine ⟨hcollect, hdescribed.2 ?_ (by decide +kernel)⟩
  rintro ⟨rest, -, hroot⟩
  have hdot : (lookingFor "./src/**").root.bytes = [dot] := by decide +kernel
  rw [hdot] at hroot
  cases hroot

/-- With a mark a pattern selects nothing, and a file that it does not describe is collected. -/
theorem undescribed_collected :
    ¬ ∀ (o : Options) (tree : FileTree) (files : List Path),
      o.pattern.toList.head? ≠ some '/' → o.pattern ≠ "" →
      (∀ c, o.pattern.toList.getLast? = some c → isBlank c = false) →
      collect o tree = .ok files →
      ∀ file ∈ files, describes (bare o.pattern.toList) file.bytes = true := by
  intro h
  have hcollect : collect (lookingFor "!x/y") sourceTree =
      .ok [.ofString "a.js", .ofString "src/b.js"] := by
    decide +kernel
  have hend : ∀ c, (lookingFor "!x/y").pattern.toList.getLast? = some c → isBlank c = false := by
    intro c hc
    cases hc
    rfl
  have hdescribes := h (lookingFor "!x/y") sourceTree _ (by decide +kernel) (by decide +kernel)
    hend hcollect _ List.mem_cons_self
  exact absurd hdescribes (by decide +kernel)

end Collection

end ConsoleSweep
